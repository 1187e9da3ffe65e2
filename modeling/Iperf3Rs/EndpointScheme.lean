import Iperf3Rs.PushConfigAgreement

/-! The scheme of a Pushgateway endpoint. An endpoint without one becomes an HTTP URL, and the URL
is validated after that. -/

namespace Iperf3Rs

def Text.toAsciiLowercase (s : String) : String := .ofList (s.toList.map Char.toLower)

def isSchemeChar (c : Char) : Bool := c.isAlphanum || c == '+' || c == '-' || c == '.'

def isSchemeName (scheme : String) : Bool :=
  match scheme.toList with
  | [] => false
  | first :: rest => first.isAlpha && rest.all isSchemeChar

def CarriesScheme (text scheme : String) : Prop :=
  isSchemeName scheme = true ∧ ∃ rest, text = scheme ++ "://" ++ rest

variable {Url : Type} {P : Platform Url}

/-- The URL library reads the scheme that a text carries, in lower case. -/
def Platform.ReadsSchemes (P : Platform Url) : Prop :=
  ∀ text scheme url, CarriesScheme text scheme → P.parseUrl text = .ok url →
    P.scheme url = Text.toAsciiLowercase scheme

/-- A scheme behind `http://` is read as the host, with an empty port behind it. -/
def Platform.ReadsAuthorities (P : Platform Url) : Prop :=
  ∀ text scheme url, CarriesScheme text scheme → P.parseUrl ("http://" ++ text) = .ok url →
    P.hostStr url = some (Text.toAsciiLowercase scheme)

section Schemes

theorem isSchemeChar_of_isAlpha {c : Char} (h : c.isAlpha = true) : isSchemeChar c = true := by
  simp [isSchemeChar, Char.isAlphanum, h]

theorem colon_not_mem {scheme : String} (h : isSchemeName scheme = true) :
    ':' ∉ scheme.toList := by
  have hall : ∀ c ∈ scheme.toList, isSchemeChar c = true := by
    simp only [isSchemeName] at h
    split at h
    · cases h
    · next first rest hlist =>
      rw [Bool.and_eq_true, List.all_eq_true] at h
      intro c hc
      rw [hlist] at hc
      rcases List.mem_cons.mp hc with rfl | hc
      · exact isSchemeChar_of_isAlpha h.1
      · exact h.2 c hc
  intro hmem
  have hcolon := hall ':' hmem
  cases hcolon

theorem CarriesScheme.splitOnce {text scheme : String} (h : CarriesScheme text scheme) :
    ∃ rest, Text.splitOnce ':' text = some (scheme, "//" ++ rest) := by
  obtain ⟨hname, rest, rfl⟩ := h
  refine ⟨rest, ?_⟩
  have htext : scheme ++ "://" ++ rest = scheme ++ .ofList (':' :: ("//" ++ rest).toList) := by
    rw [← String.toList_inj, String.append_assoc, String.toList_append, String.toList_append]
    simp
  rw [htext]
  exact Text.splitOnce_append (colon_not_mem hname) ("//" ++ rest)

theorem CarriesScheme.ne_empty {text scheme : String} (h : CarriesScheme text scheme) :
    text ≠ "" := by
  rintro rfl
  obtain ⟨rest, hsplit⟩ := h.splitOnce
  cases hsplit

theorem CarriesScheme.unique {text scheme scheme' : String} (h : CarriesScheme text scheme)
    (h' : CarriesScheme text scheme') : scheme = scheme' := by
  obtain ⟨rest, hsplit⟩ := h.splitOnce
  obtain ⟨rest', hsplit'⟩ := h'.splitOnce
  rw [hsplit, Option.some.injEq, Prod.mk.injEq] at hsplit'
  exact hsplit'.1

end Schemes

namespace PushGatewayConfig

/-- What stands before the call of the URL library. -/
def withScheme (raw : String) : String :=
  if Text.startsWith raw "http://" || Text.startsWith raw "https://" then raw else "http://" ++ raw

/-- `parse_endpoint` returns what the URL library makes of `text`, whatever the library is. -/
def HandsOver (raw text : String) : Prop :=
  ∀ (Url : Type) (P : Platform Url), parseEndpoint P raw =
    (P.parseUrl text).mapError fun _ => .invalidArgument "invalid Pushgateway endpoint URL"

theorem parseEndpoint_eq (P : Platform Url) {raw : String} (h : Text.trim raw ≠ "") :
    parseEndpoint P raw = (P.parseUrl (withScheme (Text.trim raw))).mapError
      fun _ => .invalidArgument "invalid Pushgateway endpoint URL" := by
  simp only [parseEndpoint, if_neg h, withScheme]
  split <;> next hparse => rw [hparse]; rfl

theorem handsOver_withScheme {raw : String} (h : Text.trim raw ≠ "") :
    HandsOver raw (withScheme (Text.trim raw)) := fun _ P => parseEndpoint_eq P h

/-- A library that takes every text for a URL. -/
def echo : Platform String := ⟨.ok, fun _ => "http", some, fun _ => .ok 0⟩

theorem HandsOver.echo_eq {raw text : String} (h : HandsOver raw text) :
    parseEndpoint echo raw = .ok text := h String echo

theorem HandsOver.unique {raw text text' : String} (h : HandsOver raw text)
    (h' : HandsOver raw text') : text = text' :=
  Except.ok.inj (h.echo_eq.symm.trans h'.echo_eq)

theorem HandsOver.trim_ne_empty {raw text : String} (h : HandsOver raw text) :
    Text.trim raw ≠ "" := by
  intro hempty
  have hecho := h.echo_eq
  rw [parseEndpoint, if_pos hempty] at hecho
  cases hecho

theorem append_ne_self (text : String) : "http://" ++ text ≠ text := by
  intro h
  have hlength := congrArg (fun s => s.toList.length) h
  simp only [String.toList_append, List.length_append] at hlength
  have hstart : "http://".toList.length = 7 := rfl
  omega

/-- An explicit scheme is kept where it is one of the two the source looks for. -/
theorem withScheme_eq_self {text scheme : String} (h : CarriesScheme text scheme) :
    withScheme text = text ↔ scheme = "http" ∨ scheme = "https" := by
  have hstarts : ∀ known : String, isSchemeName known = true →
      (Text.startsWith text (known ++ "://") = true ↔ scheme = known) := by
    intro known hknown
    rw [Text.startsWith_iff]
    constructor
    · rintro ⟨rest, hrest⟩
      exact h.unique ⟨hknown, rest, hrest⟩
    · rintro rfl
      exact h.2
  have hhttp := hstarts "http" rfl
  have hhttps := hstarts "https" rfl
  rw [← hhttp, ← hhttps, ← Bool.or_eq_true]
  change (if (Text.startsWith text ("http" ++ "://") || Text.startsWith text ("https" ++ "://")) =
    true then text else "http://" ++ text) = text ↔ _
  split
  · next hs => exact iff_of_true rfl hs
  · next hs => exact iff_of_false (append_ne_self text) hs

theorem withScheme_of_none {text : String} (h : ∀ scheme, ¬ CarriesScheme text scheme) :
    withScheme text = "http://" ++ text := by
  rw [withScheme, if_neg]
  rw [Bool.or_eq_true, Text.startsWith_iff, Text.startsWith_iff]
  rintro (⟨rest, hrest⟩ | ⟨rest, hrest⟩)
  · exact h "http" ⟨rfl, rest, hrest⟩
  · exact h "https" ⟨rfl, rest, hrest⟩

/-- The user's scheme decides what becomes of an endpoint. -/
structure EndpointScheme (P : Platform Url) (raw : String) : Prop where
  handed : ∀ scheme, CarriesScheme (Text.trim raw) scheme → HandsOver raw (Text.trim raw)
  judged : ∀ scheme url, CarriesScheme (Text.trim raw) scheme → parseEndpoint P raw = .ok url →
    P.scheme url = Text.toAsciiLowercase scheme
  kept : ∀ scheme, CarriesScheme (Text.trim raw) scheme →
    Text.toAsciiLowercase scheme = "http" ∨ Text.toAsciiLowercase scheme = "https" →
    ∀ url, parseEndpoint P raw = .ok url →
      ∃ own, P.parseUrl (Text.trim raw) = .ok own ∧ P.hostStr url = P.hostStr own
  rejected : ∀ scheme, CarriesScheme (Text.trim raw) scheme →
    ¬ (Text.toAsciiLowercase scheme = "http" ∨ Text.toAsciiLowercase scheme = "https") →
    ∀ url, parseEndpoint P raw = .ok url → ∀ config : PushGatewayConfig Url,
      config.endpoint = url → ∃ e, config.validate P = .error e
  prepended : HandsOver raw ("http://" ++ Text.trim raw) ↔
    Text.trim raw ≠ "" ∧ ∀ scheme, ¬ CarriesScheme (Text.trim raw) scheme

theorem mapError_eq_ok {ε ε' α : Type} {f : ε → ε'} {x : Except ε α} {a : α}
    (h : x.mapError f = .ok a) : x = .ok a := by
  cases x with
  | error e => cases h
  | ok b =>
    cases h
    rfl

/-- The code keeps an explicit scheme if and only if it is `http` or `https` in lower case. -/
theorem endpoint_scheme (P : Platform Url) (hP : P.ReadsSchemes) (raw : String) :
    EndpointScheme P raw ↔
      ∀ scheme, CarriesScheme (Text.trim raw) scheme → scheme = "http" ∨ scheme = "https" := by
  constructor
  · intro h scheme hscheme
    have hhanded := h.handed scheme hscheme
    have hsame := (handsOver_withScheme hhanded.trim_ne_empty).unique hhanded
    exact (withScheme_eq_self hscheme).mp hsame
  · intro h
    have hkept : ∀ scheme, CarriesScheme (Text.trim raw) scheme →
        withScheme (Text.trim raw) = Text.trim raw := fun scheme hscheme =>
      (withScheme_eq_self hscheme).mpr (h scheme hscheme)
    have hhanded : ∀ scheme, CarriesScheme (Text.trim raw) scheme →
        HandsOver raw (Text.trim raw) := by
      intro scheme hscheme
      have hover := handsOver_withScheme hscheme.ne_empty
      rwa [hkept scheme hscheme] at hover
    have hparsed : ∀ scheme url, CarriesScheme (Text.trim raw) scheme →
        parseEndpoint P raw = .ok url → P.parseUrl (Text.trim raw) = .ok url := by
      intro scheme url hscheme hurl
      rw [hhanded scheme hscheme Url P] at hurl
      exact mapError_eq_ok hurl
    refine ⟨hhanded, ?_, ?_, ?_, ?_, ?_⟩
    · intro scheme url hscheme hurl
      exact hP _ scheme url hscheme (hparsed scheme url hscheme hurl)
    · intro scheme hscheme _ url hurl
      exact ⟨url, hparsed scheme url hscheme hurl, rfl⟩
    · intro scheme hscheme hforeign
      rcases h scheme hscheme with rfl | rfl
      · exact absurd (.inl rfl) hforeign
      · exact absurd (.inr rfl) hforeign
    · intro hover
      refine ⟨hover.trim_ne_empty, fun scheme hscheme => ?_⟩
      exact append_ne_self _ (hover.unique (hhanded scheme hscheme))
    · rintro ⟨hne, hnone⟩
      have hover := handsOver_withScheme hne
      rwa [withScheme_of_none hnone] at hover

/-- Every other scheme passes the validation, as the host of an HTTP URL. -/
theorem endpoint_misdirected (hP : P.ReadsSchemes) (hauthority : P.ReadsAuthorities)
    {raw scheme : String} (hscheme : CarriesScheme (Text.trim raw) scheme)
    (hforeign : ¬ (scheme = "http" ∨ scheme = "https")) {url : Url}
    (hurl : parseEndpoint P raw = .ok url) :
    P.scheme url = "http" ∧ P.hostStr url = some (Text.toAsciiLowercase scheme) ∧
      validateEndpoint P url = .ok () := by
  have hwith : withScheme (Text.trim raw) = "http://" ++ Text.trim raw := by
    have hne := fun hsame => hforeign ((withScheme_eq_self hscheme).mp hsame)
    rw [withScheme] at hne ⊢
    split
    · next hstarts => exact absurd (if_pos hstarts) hne
    · rfl
  rw [parseEndpoint_eq P hscheme.ne_empty, hwith] at hurl
  have hparsed := mapError_eq_ok hurl
  have hhttp : P.scheme url = "http" := hP _ "http" url ⟨rfl, Text.trim raw, rfl⟩ hparsed
  have hhost := hauthority _ scheme url hscheme hparsed
  refine ⟨hhttp, hhost, ?_⟩
  rw [validateEndpoint, if_pos (.inl hhttp), hhost]
  rfl

structure PlainUrl where
  scheme : String
  host : String

/-- The URLs with a scheme and a plain host. -/
def readUrl (text : String) : Except String PlainUrl :=
  match Text.splitOnce ':' text with
  | none => .error "relative URL without a base"
  | some (scheme, rest) =>
    if isSchemeName scheme && Text.startsWith rest "//" then
      let host := (rest.toList.drop 2).takeWhile fun c => c != ':' && c != '/'
      if host = [] then .error "empty host"
      else .ok ⟨Text.toAsciiLowercase scheme, Text.toAsciiLowercase (.ofList host)⟩
    else .error "relative URL without a base"

def plainPlatform : Platform PlainUrl := ⟨readUrl, PlainUrl.scheme, fun url => some url.host,
  fun _ => .ok 0⟩

theorem plainPlatform_readsSchemes : plainPlatform.ReadsSchemes := by
  intro text scheme url hscheme hurl
  obtain ⟨rest, hsplit⟩ := hscheme.splitOnce
  change readUrl text = .ok url at hurl
  change url.scheme = _
  simp only [readUrl, hsplit] at hurl
  split at hurl
  · split at hurl
    · cases hurl
    · cases hurl
      rfl
  · cases hurl

theorem endpoint_scheme_https : EndpointScheme plainPlatform " https://gateway:9091/ " ∧
    ∃ url, parseEndpoint plainPlatform " https://gateway:9091/ " = .ok url ∧
      plainPlatform.hostStr url = some "gateway" := by
  refine ⟨(endpoint_scheme plainPlatform plainPlatform_readsSchemes _).mpr ?_, _, rfl, rfl⟩
  intro scheme hscheme
  exact .inr (hscheme.unique ⟨rfl, "gateway:9091/", rfl⟩)

/-- The pushes meant for `gateway` go to the host `http`, and FTP is not rejected. -/
theorem endpoint_scheme_fails :
    (parseEndpoint plainPlatform "HTTP://gateway:9091" = .ok ⟨"http", "http"⟩ ∧
      plainPlatform.parseUrl "HTTP://gateway:9091" = .ok ⟨"http", "gateway"⟩ ∧
      (PushGatewayConfig.new ⟨"http", "http"⟩).validate plainPlatform = .ok () ∧
      ¬ EndpointScheme plainPlatform "HTTP://gateway:9091") ∧
    parseEndpoint plainPlatform "ftp://gateway" = .ok ⟨"http", "ftp"⟩ ∧
      (PushGatewayConfig.new ⟨"http", "ftp"⟩).validate plainPlatform = .ok () ∧
      ¬ EndpointScheme plainPlatform "ftp://gateway" := by
  have hupper : parseEndpoint plainPlatform "HTTP://gateway:9091" = .ok ⟨"http", "http"⟩ := rfl
  have hown : plainPlatform.parseUrl "HTTP://gateway:9091" = .ok ⟨"http", "gateway"⟩ := rfl
  have hftp : parseEndpoint plainPlatform "ftp://gateway" = .ok ⟨"http", "ftp"⟩ := rfl
  have hvalid : (PushGatewayConfig.new ⟨"http", "ftp"⟩).validate plainPlatform = .ok () := rfl
  refine ⟨⟨hupper, hown, rfl, fun h => ?_⟩, hftp, hvalid, fun h => ?_⟩
  · have htrim : Text.trim "HTTP://gateway:9091" = "HTTP://gateway:9091" := by decide
    have hscheme : CarriesScheme (Text.trim "HTTP://gateway:9091") "HTTP" := by
      rw [htrim]
      exact ⟨rfl, "gateway:9091", rfl⟩
    obtain ⟨own, hparsed, hhost⟩ := h.kept "HTTP" hscheme (.inl rfl) _ hupper
    rw [htrim, hown] at hparsed
    cases hparsed
    exact absurd (Option.some.inj hhost) (by decide)
  · have htrim : Text.trim "ftp://gateway" = "ftp://gateway" := by decide
    have hscheme : CarriesScheme (Text.trim "ftp://gateway") "ftp" := by
      rw [htrim]
      exact ⟨rfl, "gateway", rfl⟩
    obtain ⟨e, he⟩ := h.rejected "ftp" hscheme (by decide) _ hftp
      (PushGatewayConfig.new ⟨"http", "ftp"⟩) rfl
    rw [hvalid] at he
    cases he

end PushGatewayConfig

end Iperf3Rs
