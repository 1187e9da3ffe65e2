import Iperf3Rs.PushConfigAgreement
import Mathlib.Data.List.Forall2
import Mathlib.Data.List.Nodup

/-! Wrapper options as a user writes them, and that a valid Pushgateway config can be given on the
command line, each option inline or with its value in the next word. -/

namespace Iperf3Rs

structure Given where
  option : WrapperOption
  value : String
  inline : Bool

namespace Given

def words (g : Given) : List String :=
  if g.inline then [g.option.name ++ .ofList ('=' :: g.value.toList)] else [g.option.name, g.value]

def segment (g : Given) : Segment := .wrapper g.option (some g.value) g.words

end Given

section Spelling

variable {Url : Type} {P : Platform Url}

theorem wrapperWord_spelled (option : WrapperOption) (value : String) :
    wrapperWord (option.name ++ .ofList ('=' :: value.toList)) = some (option, some value) := by
  have hname : '=' ∉ option.name.toList := by cases option <;> decide
  have hlong : Text.startsWith option.name "--" = true := by cases option <;> decide
  have hsplit : Args.splitLongValue (option.name ++ .ofList ('=' :: value.toList)) =
      some (option.name, value) := by
    rw [Args.splitLongValue, Text.splitOnce_append hname]
    simp [Option.filter, hlong]
  simp only [wrapperWord, hsplit, wrapperOption_name, Option.map_some]

theorem wrapperWord_name (option : WrapperOption) :
    wrapperWord option.name = some (option, none) := by
  cases option <;> decide

theorem ne_dashes_of_wrapperWord {word : String} (h : wrapperWord word ≠ none) : word ≠ "--" := by
  rintro rfl
  exact h (by decide)

theorem reads_given (B : ArgBoundary) {given : List Given}
    (htakes : ∀ g ∈ given, g.option.takesValue = true) :
    Reads B (given.flatMap Given.words) ⟨given.map Given.segment, [], 1, .none⟩ := by
  induction given with
  | nil => exact .finished
  | cons g given ih =>
    have hrest := ih fun g' hg' => htakes g' (List.mem_cons_of_mem _ hg')
    have hg := htakes g List.mem_cons_self
    obtain ⟨option, value, inline⟩ := g
    cases inline with
    | true =>
      have hword := wrapperWord_spelled option value
      exact .inline _ _ option value _ (ne_dashes_of_wrapperWord (by rw [hword]; simp)) hword hrest
    | false =>
      have hword := wrapperWord_name option
      exact .separate _ value _ option _ (ne_dashes_of_wrapperWord (by rw [hword]; simp)) hword hg hrest

theorem parseSettings_given {given : List Given} {settings : List Setting}
    (h : List.Forall₂ (fun g t => parseSetting P g.option (some g.value) = .ok t) given settings) :
    parseSettings P (given.map Given.segment) = .ok settings := by
  induction h with
  | nil => rfl
  | cons ht _ ih =>
    simp only [List.map_cons, Given.segment, parseSettings, ht]
    rw [ih]
    rfl

/-- The texts that give a field of the config, with the settings they stand for. -/
inductive Supplies (P : Platform Url) (config : PushGatewayConfig Url) :
    WrapperOption → String → Setting → Prop
  | pushUrl (raw : String) (h : Args.parseUrl P raw = .ok config.endpoint) :
      Supplies P config .pushUrl raw (.pushUrl raw)
  | pushJob : Supplies P config .pushJob config.job (.pushJob config.job)
  | pushLabel (name value : String) (h : (name, value) ∈ config.labels) :
      Supplies P config .pushLabel (name ++ .ofList ('=' :: value.toList))
        (.pushLabel (name, value))
  | pushRetries :
      Supplies P config .pushRetries (toString config.retries) (.pushRetries config.retries)
  | pushUserAgent :
      Supplies P config .pushUserAgent config.userAgent (.pushUserAgent config.userAgent)
  | metricsPrefix :
      Supplies P config .metricsPrefix config.metricPrefix (.metricsPrefix config.metricPrefix)

theorem Supplies.takesValue {config : PushGatewayConfig Url} {option : WrapperOption}
    {raw : String} {t : Setting} (h : Supplies P config option raw t) :
    option.takesValue = true ∧ t.option = option := by
  cases h <;> exact ⟨rfl, rfl⟩

theorem parseRetries_toString (name : String) {retries : ℕ}
    (h : PushGatewayConfig.validateRetries retries = .ok ()) :
    Args.parseRetries name (toString retries) = .ok retries := by
  have hle : retries ≤ 10 := by
    by_contra hlt
    have hmax : PushGatewayConfig.maxRetries < retries := Nat.lt_of_not_le hlt
    rw [PushGatewayConfig.validateRetries, if_pos hmax] at h
    cases h
  have htext : Text.parseUnsigned (2 ^ 32) (Text.trim (toString retries)) = some retries := by
    rw [Text.trim_toString]
    exact Text.parseUnsigned_toString (by omega)
  simp only [Args.parseRetries, htext, h]

/-- What the config accepts, the option parser accepts. -/
theorem Supplies.parse {config : PushGatewayConfig Url} (hvalid : config.validate P = .ok ())
    (huserAgent : Text.trim config.userAgent = config.userAgent)
    (hpre : Text.trim config.metricPrefix = config.metricPrefix) {option : WrapperOption}
    {raw : String} {t : Setting} (h : Supplies P config option raw t) :
    parseSetting P option (some raw) = .ok t := by
  obtain ⟨-, -, hlabels, -, hretries, hagent, hmetric⟩ :=
    PushGatewayConfig.validate_eq_ok.mp hvalid
  cases h with
  | pushUrl | pushJob => rfl
  | pushLabel name value hmem =>
    obtain ⟨hname, hreserved, hvalue⟩ :=
      (PushGatewayConfig.validateLabels_eq_ok.mp hlabels).1 (name, value) hmem
    have hsplit := Text.splitOnce_append (not_mem_of_isIdentifier hname (c := '=') rfl) value
    have hparse : Args.parseLabel "--push.label" _ true = .ok (name, value) :=
      parseLabel_eq_ok.mpr ⟨hsplit, hname, fun _ => hreserved, hvalue⟩
    simp only [parseSetting, WrapperOption.parse, WrapperOption.name, hparse]
    rfl
  | pushRetries =>
    simp only [parseSetting, WrapperOption.parse, parseRetries_toString _ hretries]
    rfl
  | pushUserAgent =>
    have hparse : Args.parseUserAgent "--push.user-agent" config.userAgent = .ok config.userAgent := by
      simp only [Args.parseUserAgent, huserAgent, hagent]
    simp only [parseSetting, WrapperOption.parse, WrapperOption.name, hparse]
    rfl
  | metricsPrefix =>
    have hparse : Args.parseMetricPrefix "--metrics.prefix" config.metricPrefix =
        .ok config.metricPrefix := by
      simp only [Args.parseMetricPrefix, hpre, hmetric]
    simp only [parseSetting, WrapperOption.parse, WrapperOption.name, hparse]
    rfl

theorem Supplies.label_mem {config : PushGatewayConfig Url} {option : WrapperOption}
    {raw : String} {t : Setting} (h : Supplies P config option raw t) {label : String × String}
    (hmem : label ∈ t.labels) : label ∈ config.labels := by
  cases h with
  | pushLabel name value hlabel =>
    rw [List.mem_singleton.mp hmem]
    exact hlabel
  | _ => cases hmem

theorem Supplies.apply_pushLabels {config : PushGatewayConfig Url} {option : WrapperOption}
    {raw : String} {t : Setting} (h : Supplies P config option raw t) (s : Extraction) :
    (t.apply s).pushLabels = s.pushLabels ++ t.labels := by
  cases h <;> simp [Setting.apply, Setting.labels]

/-- The state of the second pass when no metrics file option has been read. -/
structure PushOnly (config : PushGatewayConfig Url) (s : Extraction) : Prop where
  metricsFile : s.metricsFile = none
  metricsFormat : s.metricsFormat = none
  metricsLabels : s.metricsLabels = []
  sawMetricsSetting : s.sawMetricsSetting = false
  sawMetricsLabel : s.sawMetricsLabel = false
  pushJob : s.pushJob = none ∨ s.pushJob = some config.job
  pushUrl : ∀ raw, s.pushUrl = some raw → Args.parseUrl P raw = .ok config.endpoint

theorem PushOnly.apply {config : PushGatewayConfig Url} {s : Extraction}
    (h : PushOnly (P := P) config s) {option : WrapperOption} {raw : String} {t : Setting}
    (ht : Supplies P config option raw t) : PushOnly (P := P) config (t.apply s) := by
  cases ht with
  | pushUrl raw hraw =>
    exact { h with pushUrl := fun raw' he => by cases he; exact hraw }
  | pushJob => exact { h with pushJob := .inr rfl }
  | _ => exact { h with }

theorem envDefault_unset {α : Type} (cli : Option α) (key : String)
    (parse : String → String → Except String α) :
    Args.envDefault cli key (fun _ => .ok none) parse = .ok cli := by
  cases cli <;> rfl

theorem resolveOptions_of_pushOnly {config : PushGatewayConfig Url} {s : Extraction}
    (h : PushOnly (P := P) config s) (hjob : config.job ≠ "") (hurl : s.pushUrl.isSome = true)
    (hlabels : (s.pushLabels.map Prod.fst).Nodup) :
    ∃ app, Args.resolveOptions P (fun _ => .ok none) s = .ok (app, s.passThrough) ∧
      app.pushUrl = some config.endpoint := by
  obtain ⟨raw, hraw⟩ := Option.isSome_iff_exists.mp hurl
  have hendpoint : s.pushUrl.mapM (Args.parseUrl P) = .ok (some config.endpoint) := by
    rw [hraw]
    simp only [Option.mapM_some, h.pushUrl raw hraw]
    rfl
  have hmerge : ∃ app, Args.mergeEnvironment P (fun _ => .ok none) s = .ok (app, false) ∧
      app.pushUrl = some config.endpoint ∧ app.metricsFile = none ∧ app.pushJob ≠ "" ∧
      app.pushLabels = s.pushLabels ∧ app.metricsLabels = [] := by
    simp only [Args.mergeEnvironment, envDefault_unset, ok_bind, hendpoint, h.metricsFormat,
      h.metricsFile, h.metricsLabels, h.sawMetricsSetting]
    refine ⟨_, rfl, rfl, rfl, ?_, rfl, rfl⟩
    rcases h.pushJob with hnone | hsome
    · have hdefault : PushGatewayConfig.defaultJob ≠ "" := by decide
      rw [hnone]
      exact hdefault
    · rw [hsome]
      exact hjob
  obtain ⟨app, hmerge, happUrl, hfile, hjob, hpush, hmetrics⟩ := hmerge
  have hcheck : Args.checkOptions s app false = .ok () := by
    have hduplicates : Args.rejectDuplicateLabels "--push.label" app.pushLabels = .ok () ∧
        Args.rejectDuplicateLabels "--metrics.label" app.metricsLabels = .ok () := by
      rw [hpush, hmetrics]
      exact ⟨(rejectDuplicates_nil_eq_ok _ _).mpr hlabels, rfl⟩
    simp only [Args.checkOptions, happUrl, hfile, h.sawMetricsLabel, hjob, hduplicates.1,
      hduplicates.2]
    rfl
  exact ⟨app, resolveOptions_eq_ok.mpr ⟨false, hmerge, hcheck, rfl⟩, happUrl⟩

variable {config : PushGatewayConfig Url} {given : List Given} {settings : List Setting}

theorem pushOnly_foldl
    (hgiven : List.Forall₂ (fun g t => Supplies P config g.option g.value t) given settings)
    {s : Extraction} (hs : PushOnly (P := P) config s) :
    PushOnly (P := P) config (settings.foldl Setting.apply s) ∧
      (settings.foldl Setting.apply s).pushLabels =
        s.pushLabels ++ settings.flatMap Setting.labels := by
  induction hgiven generalizing s with
  | nil => exact ⟨hs, by simp⟩
  | @cons g t _ settings ht _ ih =>
    have hlabels := ht.apply_pushLabels s
    obtain ⟨hpush, hall⟩ := ih (hs.apply ht)
    rw [List.foldl_cons, List.flatMap_cons, ← List.append_assoc, ← hlabels]
    exact ⟨hpush, hall⟩

theorem labels_mem_of_supplies
    (hgiven : List.Forall₂ (fun g t => Supplies P config g.option g.value t) given settings)
    {label : String × String} (hmem : label ∈ settings.flatMap Setting.labels) :
    label ∈ config.labels := by
  obtain ⟨t, ht, hlabel⟩ := List.mem_flatMap.mp hmem
  obtain ⟨g, -, hsupplies⟩ := exists_of_forall₂ hgiven ht
  exact hsupplies.label_mem hlabel

/-- Each setting can be given in the words of its option, in any order and number, as long as no
label is given twice. -/
theorem accepts_given (B : NativeBoundary) (program : String)
    (hvalid : config.validate P = .ok ())
    (huserAgent : Text.trim config.userAgent = config.userAgent)
    (hpre : Text.trim config.metricPrefix = config.metricPrefix)
    (hgiven : List.Forall₂ (fun g t => Supplies P config g.option g.value t) given settings)
    (hnodup : (settings.flatMap Setting.labels).Nodup)
    (hurl : ∃ t ∈ settings, t.option = .pushUrl) :
    ∃ app, Args.extractAppOptionsWithEnv B P (program :: given.flatMap Given.words)
        (fun _ => .ok none) = .ok (app, [program]) ∧ app.pushUrl = some config.endpoint := by
  have htakes : ∀ g ∈ given, g.option.takesValue = true := by
    intro g hg
    have hflip : List.Forall₂ (fun t g => Supplies P config g.option g.value t) settings given :=
      hgiven.flip
    obtain ⟨t, -, ht⟩ := exists_of_forall₂ hflip hg
    exact ht.takesValue.1
  have hseg := segmentation_of_reads (reads_given B htakes)
  have hts : parseSettings P (given.map Given.segment) = .ok settings :=
    parseSettings_given (hgiven.imp fun g t ht => ht.parse hvalid huserAgent hpre)
  have hstart : PushOnly (P := P) config (.start program [] []) :=
    ⟨rfl, rfl, rfl, rfl, rfl, .inl rfl, fun raw he => by cases he⟩
  obtain ⟨hpush, hlabels⟩ := pushOnly_foldl hgiven hstart
  have hjob := PushGatewayConfig.validateJob_eq_ok.mp (PushGatewayConfig.validate_eq_ok.mp hvalid).2.1
  have hnames := (PushGatewayConfig.validateLabels_eq_ok.mp
    (PushGatewayConfig.validate_eq_ok.mp hvalid).2.2.1).2
  have hurlSome : (settings.foldl Setting.apply (.start program [] [])).pushUrl.isSome = true := by
    obtain ⟨t, ht, hoption⟩ := hurl
    have hadditive : WrapperOption.pushUrl.additive = false := rfl
    have hlookup := Extraction.lookup_foldl hadditive program [] [] settings
    have hmem : t ∈ KeyedFold.ofKey Setting.option .pushUrl settings :=
      List.mem_filter.mpr ⟨ht, by simpa using hoption⟩
    by_contra hnone
    rw [Bool.not_eq_true, Option.isSome_eq_false_iff, Option.isNone_iff_eq_none] at hnone
    rw [Extraction.lookup, hnone, Option.map_none] at hlookup
    rw [List.getLast?_eq_none_iff.mp hlookup.symm] at hmem
    cases hmem
  have hdistinct :
      ((settings.foldl Setting.apply (.start program [] [])).pushLabels.map Prod.fst).Nodup := by
    have hall : (settings.foldl Setting.apply (.start program [] [])).pushLabels =
        settings.flatMap Setting.labels := hlabels
    rw [hall]
    refine List.Nodup.map_on (fun x hx y hy he => ?_) hnodup
    exact List.inj_on_of_nodup_map hnames (labels_mem_of_supplies hgiven hx)
      (labels_mem_of_supplies hgiven hy) he
  have hvisited : ∀ forwarded, PushOnly (P := P) config
      ((settings.foldl Setting.apply (.start program [] [])).visited forwarded []) :=
    fun forwarded => { hpush with }
  obtain ⟨app, happ, happUrl⟩ := resolveOptions_of_pushOnly (hvisited [program]) hjob hurlSome
    hdistinct
  refine ⟨app, ?_, happUrl⟩
  have hforwarded : Segmentation.forwarded ⟨given.map Given.segment, [], 1, .none⟩ = [] := by
    simp [Segmentation.forwarded, Given.segment, Segment.upstreamWords]
  rw [extract_of_segmentation B P program _ _ hseg rfl, hts, hforwarded]
  exact happ

end Spelling

/-- The option parser and the config agree on what can be pushed. -/
theorem push_config_agreement {Url : Type} (B : NativeBoundary) (P : Platform Url) (hP : P.Lawful) :
    (∀ args env app forwarded url,
      Args.extractAppOptionsWithEnv B P args env = .ok (app, forwarded) →
      app.pushUrl = some url → (Cli.pushGatewayConfig app url).validate P = .ok ()) ∧
    ∀ program (config : PushGatewayConfig Url) (given : List Given) (settings : List Setting),
      config.validate P = .ok () → Text.trim config.userAgent = config.userAgent →
      Text.trim config.metricPrefix = config.metricPrefix →
      List.Forall₂ (fun g t => Supplies P config g.option g.value t) given settings →
      (settings.flatMap Setting.labels).Nodup → (∃ t ∈ settings, t.option = .pushUrl) →
      ∃ app, Args.extractAppOptionsWithEnv B P (program :: given.flatMap Given.words)
          (fun _ => .ok none) = .ok (app, [program]) ∧ app.pushUrl = some config.endpoint := by
  constructor
  · intro args env app forwarded url h hurl
    obtain ⟨program, rest, seg, -, -, haccepted⟩ := accepted_of_sink h (.inl (by rw [hurl]; rfl))
    exact haccepted.validate hP hurl
  · intro program config given settings hvalid huserAgent hpre hgiven hnodup hurl
    exact accepts_given B program hvalid huserAgent hpre hgiven hnodup hurl

theorem httpPlatform_lawful : httpPlatform.Lawful where
  httpUrl _ _ _ _ := ⟨.inl rfl, rfl⟩
  defaultDeadline := ⟨_, rfl⟩

def labelledConfig : PushGatewayConfig String :=
  { PushGatewayConfig.new "http://localhost:9091" with labels := [("host", "a")] }

theorem push_config_agreement_labelled :
    (∃ app url, Args.extractAppOptionsWithEnv clientBoundary httpPlatform
        ["iperf3-rs", "--push.url", "localhost:9091", "--push.label=host=a", "-c", "b"]
        (fun _ => .ok none) = .ok (app, ["iperf3-rs", "-c", "b"]) ∧
      app.pushUrl = some url ∧
      (Cli.pushGatewayConfig app url).validate httpPlatform = .ok ()) ∧
    ∃ app, Args.extractAppOptionsWithEnv clientBoundary httpPlatform
        ("iperf3-rs" :: [Given.mk .pushLabel ("host" ++ .ofList ('=' :: "a".toList)) true,
          ⟨.pushUrl, "localhost:9091", false⟩].flatMap Given.words)
        (fun _ => .ok none) = .ok (app, ["iperf3-rs"]) ∧
      app.pushUrl = some "http://localhost:9091" := by
  have hagree := push_config_agreement clientBoundary httpPlatform httpPlatform_lawful
  refine ⟨⟨_, _, rfl, rfl, hagree.1
    ["iperf3-rs", "--push.url", "localhost:9091", "--push.label=host=a", "-c", "b"]
    (fun _ => .ok none) _ ["iperf3-rs", "-c", "b"] _ rfl rfl⟩, ?_⟩
  refine hagree.2 "iperf3-rs" labelledConfig _
    [.pushLabel ("host", "a"), .pushUrl "localhost:9091"] (by decide) (by decide) (by decide) ?_
    (by decide) ⟨.pushUrl "localhost:9091", by simp, rfl⟩
  exact .cons (.pushLabel "host" "a" List.mem_cons_self) (.cons (.pushUrl _ rfl) .nil)

end Iperf3Rs
