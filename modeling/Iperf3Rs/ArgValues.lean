import Iperf3Rs.ArgForwarding
import Iperf3Rs.KeyedFold

/-! The raw values of each wrapper option, apart from the order between options, and how the
result follows from them and the environment. -/

namespace Iperf3Rs

namespace WrapperOption

def envKey : WrapperOption → String
  | .pushUrl => "IPERF3_PUSH_URL"
  | .pushJob => "IPERF3_PUSH_JOB"
  | .pushLabel => "IPERF3_PUSH_LABELS"
  | .pushTimeout => "IPERF3_PUSH_TIMEOUT"
  | .pushRetries => "IPERF3_PUSH_RETRIES"
  | .pushUserAgent => "IPERF3_PUSH_USER_AGENT"
  | .pushInterval => "IPERF3_PUSH_INTERVAL"
  | .pushDeleteOnExit => "IPERF3_PUSH_DELETE_ON_EXIT"
  | .metricsFile => "IPERF3_METRICS_FILE"
  | .metricsFormat => "IPERF3_METRICS_FORMAT"
  | .metricsLabel => "IPERF3_METRICS_LABELS"
  | .metricsPrefix => "IPERF3_METRICS_PREFIX"

/-- The two options whose values add up. -/
def additive (option : WrapperOption) : Bool := option == .pushLabel || option == .metricsLabel

theorem envKey_injective {o o' : WrapperOption} (h : o.envKey = o'.envKey) : o = o' := by
  revert h
  cases o <;> cases o' <;> decide

end WrapperOption

/-- The raw values of one option in order; an occurrence without a value has `none`. -/
def values (option : WrapperOption) : List Segment → List (Option String)
  | [] => []
  | .upstream _ :: segments => values option segments
  | .wrapper o value _ :: segments =>
    if o = option then value :: values option segments else values option segments

/-- The text in force for a scalar option, with the name it came under. A bare
`--push.delete-on-exit` stands for `true`. -/
def effective (env : Env) (segments : List Segment) (option : WrapperOption) :
    Except String (Option (String × String)) :=
  match (values option segments).getLast? with
  | some value => .ok (some (option.name, value.getD "true"))
  | none => (env option.envKey).map fun given => given.map fun raw => (option.envKey, raw)

theorem toOption_bind {ε α β : Type} (x : Except ε α) (f : α → Except ε β) :
    (x >>= f).toOption = x.toOption.bind fun a => (f a).toOption := by
  cases x <;> rfl

namespace Setting

theorem apply_comm (s : Extraction) (t t' : Setting) (h : t.option ≠ t'.option) :
    t'.apply (t.apply s) = t.apply (t'.apply s) := by
  cases t <;> cases t' <;> first | rfl | exact absurd rfl h

def labels : Setting → List (String × String)
  | .pushLabel label => [label]
  | .metricsLabel label => [label]
  | _ => []

end Setting

namespace Extraction

/-- The setting a scalar option has so far. -/
def lookup (s : Extraction) : WrapperOption → Option Setting
  | .pushUrl => s.pushUrl.map .pushUrl
  | .pushJob => s.pushJob.map .pushJob
  | .pushTimeout => s.pushTimeout.map .pushTimeout
  | .pushRetries => s.pushRetries.map .pushRetries
  | .pushUserAgent => s.pushUserAgent.map .pushUserAgent
  | .pushInterval => s.pushInterval.map .pushInterval
  | .pushDeleteOnExit => s.pushDeleteOnExit.map .pushDeleteOnExit
  | .metricsFile => s.metricsFile.map .metricsFile
  | .metricsFormat => s.metricsFormat.map .metricsFormat
  | .metricsPrefix => s.metricsPrefix.map .metricsPrefix
  | .pushLabel => none
  | .metricsLabel => none

theorem lookup_apply (s : Extraction) (t : Setting) (h : t.option.additive = false) :
    (t.apply s).lookup t.option = some t := by
  cases t <;> first | rfl | cases h

theorem lookup_apply_ne (s : Extraction) (t : Setting) (option : WrapperOption)
    (h : t.option ≠ option) : (t.apply s).lookup option = s.lookup option := by
  cases t <;> cases option <;> first | rfl | exact absurd rfl h

theorem lookup_start (program : String) (pushLabels metricsLabels : List (String × String))
    (option : WrapperOption) : (start program pushLabels metricsLabels).lookup option = none := by
  cases option <;> rfl

theorem lookup_foldl {option : WrapperOption} (h : option.additive = false)
    (program : String) (pushLabels metricsLabels : List (String × String)) (ts : List Setting) :
    (ts.foldl Setting.apply (start program pushLabels metricsLabels)).lookup option =
      (KeyedFold.ofKey Setting.option option ts).getLast? := by
  have hset : ∀ (s : Extraction) (t : Setting), t.option = option →
      (t.apply s).lookup option = some t := by
    rintro s t rfl
    exact lookup_apply s t h
  have hlast := KeyedFold.field_foldl_of_overwrite (·.lookup option) hset
    (fun s t => lookup_apply_ne s t option) ts (start program pushLabels metricsLabels)
  rw [hlast, lookup_start]
  cases (KeyedFold.ofKey Setting.option option ts).getLast? <;> rfl

def labels (s : Extraction) : WrapperOption → List (String × String)
  | .pushLabel => s.pushLabels
  | .metricsLabel => s.metricsLabels
  | _ => []

theorem labels_foldl (option : WrapperOption) (ts : List Setting) (s : Extraction) :
    (ts.foldl Setting.apply s).labels option =
      s.labels option ++ (KeyedFold.ofKey Setting.option option ts).flatMap Setting.labels := by
  have hset : ∀ (s : Extraction) (t : Setting), t.option = option →
      (t.apply s).labels option = s.labels option ++ t.labels := by
    rintro s t rfl
    cases t <;> simp [labels, Setting.option, Setting.labels, Setting.apply]
  have hkeep : ∀ (s : Extraction) (t : Setting), t.option ≠ option →
      (t.apply s).labels option = s.labels option := by
    intro s t h
    cases t <;> cases option <;> first | rfl | exact absurd rfl h
  exact KeyedFold.field_foldl_of_append (·.labels option) hset hkeep ts s

end Extraction

section Parses

variable {Url : Type} (P : Platform Url)

def Parses (option : WrapperOption) (raw : List (Option String)) (ts : List Setting) : Prop :=
  List.Forall₂ (fun value t => parseSetting P option value = .ok t) raw ts

variable {P}

theorem parses_of_parseSettings {segments : List Segment} {ts : List Setting}
    (h : parseSettings P segments = .ok ts) (option : WrapperOption) :
    Parses P option (values option segments) (KeyedFold.ofKey Setting.option option ts) := by
  induction segments generalizing ts with
  | nil =>
    cases h
    exact .nil
  | cons segment segments ih =>
    cases segment with
    | upstream words => exact ih h
    | wrapper o value words =>
      simp only [parseSettings] at h
      split at h
      · cases h
      · next t ht =>
        obtain ⟨later, hlater, rfl⟩ := exceptMap_eq_ok.mp h
        have hoption := option_of_parseSetting P ht
        by_cases ho : o = option
        · subst ho
          have hkey := KeyedFold.ofKey_cons_self Setting.option t later
          rw [hoption] at hkey
          rw [values, if_pos rfl, hkey]
          exact .cons ht (ih hlater)
        · rw [values, if_neg ho, KeyedFold.ofKey_cons_ne (hoption ▸ ho)]
          exact ih hlater

theorem parseSettings_ok {segments : List Segment}
    (h : ∀ option, ∀ value ∈ values option segments, ∃ t, parseSetting P option value = .ok t) :
    ∃ ts, parseSettings P segments = .ok ts := by
  induction segments with
  | nil => exact ⟨[], rfl⟩
  | cons segment segments ih =>
    cases segment with
    | upstream words => exact ih h
    | wrapper o value words =>
      obtain ⟨t, ht⟩ := h o value (by simp [values])
      obtain ⟨ts, hts⟩ := ih fun option value' hmem => h option value' (by
        rw [values]
        split
        · exact List.mem_cons_of_mem _ hmem
        · exact hmem)
      exact ⟨t :: ts, by simp [parseSettings, ht, hts, Except.map]⟩

theorem Parses.exists_of_mem {option : WrapperOption} {raw : List (Option String)}
    {ts : List Setting} (h : Parses P option raw ts) {value : Option String} (hmem : value ∈ raw) :
    ∃ t, parseSetting P option value = .ok t := by
  induction h with
  | nil => cases hmem
  | cons ht _ ih =>
    rcases List.mem_cons.mp hmem with rfl | hmem
    · exact ⟨_, ht⟩
    · exact ih hmem

theorem Parses.unique {option : WrapperOption} {raw : List (Option String)} {ts ts' : List Setting}
    (h : Parses P option raw ts) (h' : Parses P option raw ts') : ts = ts' := by
  induction h generalizing ts' with
  | nil =>
    cases h'
    rfl
  | cons ht _ ih =>
    cases h' with
    | cons ht' hrest' =>
      rw [ht] at ht'
      cases ht'
      rw [ih hrest']

theorem Parses.last {option : WrapperOption} {raw : List (Option String)} {ts : List Setting}
    (h : Parses P option raw ts) :
    (raw.getLast? = none ∧ ts.getLast? = none) ∨
      ∃ value t, raw.getLast? = some value ∧ ts.getLast? = some t ∧
        parseSetting P option value = .ok t := by
  induction h with
  | nil => exact .inl ⟨rfl, rfl⟩
  | @cons value t raw ts ht _ ih =>
    refine .inr ?_
    rcases ih with ⟨hraw, hts⟩ | ⟨value', t', hraw, hts, ht'⟩
    · exact ⟨value, t, by simp [List.getLast?_cons, hraw], by simp [List.getLast?_cons, hts], ht⟩
    · exact ⟨value', t', by simp [List.getLast?_cons, hraw], by simp [List.getLast?_cons, hts], ht'⟩

end Parses

section Resolution

variable {Url : Type} (P : Platform Url)

/-- The outcome of an option whose text in force is `source`. -/
def Settles {α : Type} (parse : String → String → Except String α)
    (source : Except String (Option (String × String))) (outcome : Option α) : Prop :=
  match source with
  | .ok (some (name, raw)) => ∃ value, parse name raw = .ok value ∧ outcome = some value
  | .ok none => outcome = none
  | .error _ => False

def LabelsOf (option : WrapperOption) (reserveJob : Bool) (env : Env) (segments : List Segment)
    (labels : List (String × String)) : Prop :=
  ∃ fromEnv fromCli, Args.envLabels env option.envKey reserveJob = .ok fromEnv ∧
    List.Forall₂ (fun value label => ∃ raw, value = some raw ∧
      Args.parseLabel option.name raw reserveJob = .ok label) (values option segments) fromCli ∧
    labels = fromEnv ++ fromCli

/-- Every field is that of the last value on the command line, else of the environment, else the
default, and the labels of the two origins follow each other. -/
structure Resolved (env : Env) (segments : List Segment) (app : AppOptions Url) : Prop where
  pushUrl : Settles (fun _ => Args.parseUrl P) (effective env segments .pushUrl) app.pushUrl
  pushJob : ∃ value, app.pushJob = value.getD PushGatewayConfig.defaultJob ∧
    Settles (fun _ raw => .ok raw) (effective env segments .pushJob) value
  pushLabels : LabelsOf .pushLabel true env segments app.pushLabels
  pushTimeout : ∃ value, app.pushTimeout = value.getD PushGatewayConfig.defaultTimeout ∧
    Settles (Args.parseDurationOption P) (effective env segments .pushTimeout) value
  pushRetries : ∃ value, app.pushRetries = value.getD PushGatewayConfig.defaultRetries ∧
    Settles Args.parseRetries (effective env segments .pushRetries) value
  pushUserAgent : ∃ value, app.pushUserAgent = value.getD PushGatewayConfig.defaultUserAgent ∧
    Settles Args.parseUserAgent (effective env segments .pushUserAgent) value
  pushInterval : Settles (Args.parseDurationOption P) (effective env segments .pushInterval)
    app.pushInterval
  pushDeleteOnExit : ∃ value, app.pushDeleteOnExit = value.getD false ∧
    Settles Args.parseBoolOption (effective env segments .pushDeleteOnExit) value
  metricsFile : Settles (fun _ raw => .ok raw) (effective env segments .metricsFile)
    app.metricsFile
  metricsFormat : ∃ value, app.metricsFormat = value.getD .jsonl ∧
    Settles Args.parseMetricsFormat (effective env segments .metricsFormat) value
  metricsLabels : LabelsOf .metricsLabel false env segments app.metricsLabels
  metricsPrefix : ∃ value, app.metricsPrefix = value.getD PushGatewayConfig.defaultMetricPrefix ∧
    Settles Args.parseMetricPrefix (effective env segments .metricsPrefix) value

variable {P}

theorem settles_of_envDefault {α : Type} {option : WrapperOption} {cli outcome : Option α}
    {ctor : α → Setting} {parse : String → String → Except String α} {env : Env}
    {segments : List Segment} {ts : List Setting}
    (hcli : cli.map ctor = (KeyedFold.ofKey Setting.option option ts).getLast?)
    (hts : Parses P option (values option segments) (KeyedFold.ofKey Setting.option option ts))
    (hparse : ∀ value a, parseSetting P option value = .ok (ctor a) →
      parse option.name (value.getD "true") = .ok a)
    (h : Args.envDefault cli option.envKey env parse = .ok outcome) :
    Settles parse (effective env segments option) outcome := by
  rcases hts.last with ⟨hraw, hlast⟩ | ⟨value, t, hraw, hlast, ht⟩
  · rw [hlast, Option.map_eq_none_iff] at hcli
    subst hcli
    simp only [Args.envDefault] at h
    simp only [effective, hraw]
    cases henv : env option.envKey with
    | error e =>
      rw [henv] at h
      cases h
    | ok given =>
      rw [henv] at h
      cases given with
      | none =>
        cases h
        rfl
      | some raw =>
        obtain ⟨value, hvalue, rfl⟩ := exceptMap_eq_ok.mp h
        exact ⟨value, hvalue, rfl⟩
  · rw [hlast, Option.map_eq_some_iff] at hcli
    obtain ⟨a, rfl, rfl⟩ := hcli
    simp only [Args.envDefault, Except.ok.injEq] at h
    simp only [effective, hraw]
    exact ⟨a, hparse value a ht, h.symm⟩

theorem parse_of_parseSetting {α : Type} {option : WrapperOption} {ctor : α → Setting}
    {parse : String → String → Except String α} (htakes : option.takesValue = true)
    (hinj : Function.Injective ctor)
    (heq : ∀ raw, option.parse P raw = (parse option.name raw).map ctor)
    (value : Option String) (a : α) (h : parseSetting P option value = .ok (ctor a)) :
    parse option.name (value.getD "true") = .ok a := by
  cases value with
  | none =>
    simp only [parseSetting, htakes, if_true] at h
    cases h
  | some raw =>
    rw [parseSetting, heq] at h
    obtain ⟨b, hb, hab⟩ := exceptMap_eq_ok.mp h
    rw [← hinj hab]
    exact hb

/-- A bare `--push.delete-on-exit` has the setting of `true`. -/
theorem bool_of_parseSetting {value : Option String} {a : Bool}
    (h : parseSetting P .pushDeleteOnExit value = .ok (.pushDeleteOnExit a)) :
    Args.parseBoolOption WrapperOption.pushDeleteOnExit.name (value.getD "true") = .ok a := by
  cases value with
  | none =>
    cases h
    decide
  | some raw =>
    rw [parseSetting, WrapperOption.parse] at h
    obtain ⟨b, hb, hab⟩ := exceptMap_eq_ok.mp h
    cases hab
    exact hb

theorem settles_of_raw {option : WrapperOption} {cli outcome : Option String}
    {ctor : String → Setting} {env : Env} {segments : List Segment} {ts : List Setting}
    (htakes : option.takesValue = true) (hinj : Function.Injective ctor)
    (heq : ∀ raw, option.parse P raw = .ok (ctor raw))
    (hcli : cli.map ctor = (KeyedFold.ofKey Setting.option option ts).getLast?)
    (hts : Parses P option (values option segments) (KeyedFold.ofKey Setting.option option ts))
    (h : Args.envDefault cli option.envKey env (fun _ raw => .ok raw) = .ok outcome) :
    Settles (fun _ raw => .ok raw) (effective env segments option) outcome := by
  let parse : String → String → Except String String := fun _ raw => .ok raw
  have hparse : ∀ value a, parseSetting P option value = .ok (ctor a) →
      parse option.name (value.getD "true") = .ok a := parse_of_parseSetting htakes hinj heq
  exact settles_of_envDefault hcli hts hparse h

/-- The URL is parsed only when its text has been settled. -/
theorem Settles.mapM {α β : Type} {parse : α → Except String β}
    {source : Except String (Option (String × String))} {raw : Option α} {outcome : Option β}
    {pre : String → String → Except String α} (h : Settles pre source raw)
    (hmap : raw.mapM parse = .ok outcome) :
    Settles (fun name text => pre name text >>= parse) source outcome := by
  cases source with
  | error e => exact h
  | ok given =>
    cases given with
    | none =>
      cases h
      cases hmap
      rfl
    | some given =>
      obtain ⟨value, hvalue, rfl⟩ := h
      obtain ⟨result, hresult, rfl⟩ := exceptMap_eq_ok.mp hmap
      exact ⟨result, bind_eq_ok.mpr ⟨value, hvalue, hresult⟩, rfl⟩

theorem label_of_parseSetting {option : WrapperOption} (h : option.additive = true)
    {value : Option String} {t : Setting} (ht : parseSetting P option value = .ok t) :
    ∃ raw label, value = some raw ∧ t.labels = [label] ∧
      Args.parseLabel option.name raw (option == .pushLabel) = .ok label := by
  cases value with
  | none => cases option <;> cases h <;> cases ht
  | some raw =>
    cases option <;> cases h
    all_goals
      obtain ⟨label, hlabel, rfl⟩ := exceptMap_eq_ok.mp ht
      exact ⟨raw, label, rfl, rfl, hlabel⟩

theorem labelsOf_of_parses {option : WrapperOption} (h : option.additive = true) {env : Env}
    {segments : List Segment} {ts : List Setting} {fromEnv : List (String × String)}
    (henv : Args.envLabels env option.envKey (option == .pushLabel) = .ok fromEnv)
    (hts : Parses P option (values option segments) (KeyedFold.ofKey Setting.option option ts))
    {s : Extraction} (hs : s.labels option = fromEnv) :
    LabelsOf option (option == .pushLabel) env segments
      ((ts.foldl Setting.apply s).labels option) := by
  refine ⟨fromEnv, _, henv, ?_, by rw [Extraction.labels_foldl, hs]⟩
  revert hts
  generalize values option segments = raw
  generalize KeyedFold.ofKey Setting.option option ts = parsed
  intro hts
  induction hts with
  | nil => exact .nil
  | cons ht _ ih =>
    obtain ⟨raw, label, rfl, hlabels, hparse⟩ := label_of_parseSetting h ht
    rw [List.flatMap_cons, hlabels]
    exact .cons ⟨raw, rfl, hparse⟩ ih

theorem resolved_of_merge {env : Env} {segments : List Segment} {ts : List Setting}
    {s : Extraction} {app : AppOptions Url} {saw : Bool}
    (hts : parseSettings P segments = .ok ts)
    (hlookup : ∀ option, option.additive = false →
      s.lookup option = (KeyedFold.ofKey Setting.option option ts).getLast?)
    (hlabels : ∀ option, option.additive = true →
      LabelsOf option (option == .pushLabel) env segments (s.labels option))
    (h : Args.mergeEnvironment P env s = .ok (app, saw)) : Resolved P env segments app := by
  have hparses := parses_of_parseSettings hts
  simp only [Args.mergeEnvironment, bind_eq_ok, Except.ok.injEq, Prod.mk.injEq] at h
  obtain ⟨timeout, htimeout, retries, hretries, userAgent, huserAgent, metricPrefix,
    hmetricPrefix, interval, hinterval, delete, hdelete, format, hformat, url, hurl, endpoint,
    hendpoint, job, hjob, file, hfile, rfl, -⟩ := h
  have hurlRaw := settles_of_raw rfl (fun _ _ => Setting.pushUrl.inj) (fun _ => rfl)
    (hlookup .pushUrl rfl) (hparses .pushUrl) hurl
  constructor
  case pushUrl =>
    have hparsed := hurlRaw.mapM hendpoint
    simp only [ok_bind] at hparsed
    exact hparsed
  case pushJob =>
    exact ⟨job, rfl, settles_of_raw rfl (fun _ _ => Setting.pushJob.inj) (fun _ => rfl)
      (hlookup .pushJob rfl) (hparses .pushJob) hjob⟩
  case metricsFile =>
    exact settles_of_raw rfl (fun _ _ => Setting.metricsFile.inj) (fun _ => rfl)
      (hlookup .metricsFile rfl) (hparses .metricsFile) hfile
  case pushLabels => exact hlabels .pushLabel rfl
  case metricsLabels => exact hlabels .metricsLabel rfl
  case pushTimeout =>
    exact ⟨timeout, rfl, settles_of_envDefault (hlookup .pushTimeout rfl) (hparses .pushTimeout)
      (parse_of_parseSetting rfl (fun _ _ => Setting.pushTimeout.inj) fun _ => rfl) htimeout⟩
  case pushRetries =>
    exact ⟨retries, rfl, settles_of_envDefault (hlookup .pushRetries rfl) (hparses .pushRetries)
      (parse_of_parseSetting rfl (fun _ _ => Setting.pushRetries.inj) fun _ => rfl) hretries⟩
  case pushUserAgent =>
    exact ⟨userAgent, rfl, settles_of_envDefault (hlookup .pushUserAgent rfl)
      (hparses .pushUserAgent)
      (parse_of_parseSetting rfl (fun _ _ => Setting.pushUserAgent.inj) fun _ => rfl) huserAgent⟩
  case pushInterval =>
    exact settles_of_envDefault (hlookup .pushInterval rfl) (hparses .pushInterval)
      (parse_of_parseSetting rfl (fun _ _ => Setting.pushInterval.inj) fun _ => rfl) hinterval
  case metricsFormat =>
    exact ⟨format, rfl, settles_of_envDefault (hlookup .metricsFormat rfl)
      (hparses .metricsFormat)
      (parse_of_parseSetting rfl (fun _ _ => Setting.metricsFormat.inj) fun _ => rfl) hformat⟩
  case metricsPrefix =>
    exact ⟨metricPrefix, rfl, settles_of_envDefault (hlookup .metricsPrefix rfl)
      (hparses .metricsPrefix)
      (parse_of_parseSetting rfl (fun _ _ => Setting.metricsPrefix.inj) fun _ => rfl) hmetricPrefix⟩
  case pushDeleteOnExit =>
    exact ⟨delete, rfl, settles_of_envDefault (hlookup .pushDeleteOnExit rfl)
      (hparses .pushDeleteOnExit) (fun _ _ => bool_of_parseSetting) hdelete⟩

end Resolution

end Iperf3Rs
