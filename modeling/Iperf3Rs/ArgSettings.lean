import Iperf3Rs.ArgSegments

/-! What one occurrence of a wrapper option means, whichever block of the second pass takes it
and however its value is written. -/

namespace Iperf3Rs

inductive Setting where
  | pushUrl (value : String)
  | pushJob (value : String)
  | pushLabel (label : String × String)
  | pushTimeout (value : Duration)
  | pushRetries (value : ℕ)
  | pushUserAgent (value : String)
  | pushInterval (value : Duration)
  | pushDeleteOnExit (value : Bool)
  | metricsFile (value : String)
  | metricsFormat (value : MetricsFileFormat)
  | metricsLabel (label : String × String)
  | metricsPrefix (value : String)

namespace Setting

def option : Setting → WrapperOption
  | .pushUrl _ => .pushUrl
  | .pushJob _ => .pushJob
  | .pushLabel _ => .pushLabel
  | .pushTimeout _ => .pushTimeout
  | .pushRetries _ => .pushRetries
  | .pushUserAgent _ => .pushUserAgent
  | .pushInterval _ => .pushInterval
  | .pushDeleteOnExit _ => .pushDeleteOnExit
  | .metricsFile _ => .metricsFile
  | .metricsFormat _ => .metricsFormat
  | .metricsLabel _ => .metricsLabel
  | .metricsPrefix _ => .metricsPrefix

def apply (s : Extraction) : Setting → Extraction
  | .pushUrl value => { s with pushUrl := some value }
  | .pushJob value => { s with pushJob := some value, sawPushJob := true }
  | .pushLabel label => { s with pushLabels := s.pushLabels ++ [label], sawPushLabel := true }
  | .pushTimeout value => { s with pushTimeout := some value, sawPushSetting := true }
  | .pushRetries value => { s with pushRetries := some value, sawPushSetting := true }
  | .pushUserAgent value => { s with pushUserAgent := some value, sawPushSetting := true }
  | .pushInterval value => { s with pushInterval := some value, sawPushSetting := true }
  | .pushDeleteOnExit value => { s with pushDeleteOnExit := some value, sawPushSetting := true }
  | .metricsFile value => { s with metricsFile := some value }
  | .metricsFormat value => { s with metricsFormat := some value, sawMetricsSetting := true }
  | .metricsLabel label =>
    { s with metricsLabels := s.metricsLabels ++ [label], sawMetricsLabel := true }
  | .metricsPrefix value => { s with metricsPrefix := some value, sawMetricPrefix := true }

end Setting

section

variable {Url : Type} (P : Platform Url)

def WrapperOption.parse (option : WrapperOption) (value : String) : Except String Setting :=
  match option with
  | .pushUrl => .ok (.pushUrl value)
  | .pushJob => .ok (.pushJob value)
  | .pushLabel => (Args.parseLabel option.name value true).map .pushLabel
  | .pushTimeout => (Args.parseDurationOption P option.name value).map .pushTimeout
  | .pushRetries => (Args.parseRetries option.name value).map .pushRetries
  | .pushUserAgent => (Args.parseUserAgent option.name value).map .pushUserAgent
  | .pushInterval => (Args.parseDurationOption P option.name value).map .pushInterval
  | .pushDeleteOnExit => (Args.parseBoolOption option.name value).map .pushDeleteOnExit
  | .metricsFile => .ok (.metricsFile value)
  | .metricsFormat => (Args.parseMetricsFormat option.name value).map .metricsFormat
  | .metricsLabel => (Args.parseLabel option.name value false).map .metricsLabel
  | .metricsPrefix => (Args.parseMetricPrefix option.name value).map .metricsPrefix

/-- An option without a value is a missing operand, unless it takes none. -/
def parseSetting (option : WrapperOption) : Option String → Except String Setting
  | some value => option.parse P value
  | none =>
    if option.takesValue then .error s!"{option.name} requires a value"
    else .ok (.pushDeleteOnExit true)

def parseSettings : List Segment → Except String (List Setting)
  | [] => .ok []
  | .upstream _ :: segments => parseSettings segments
  | .wrapper option value _ :: segments =>
    match parseSetting P option value with
    | .error e => .error e
    | .ok t => (parseSettings segments).map (t :: ·)

theorem map_map_eq_bind {ε α β γ : Type} (x : Except ε α) (f : α → β) (g : β → γ) :
    (x.map f).map g = x >>= fun a => .ok (g (f a)) := by
  cases x <;> rfl

theorem ok_bind {ε α β : Type} (a : α) (f : α → Except ε β) : (Except.ok a >>= f) = f a := rfl

theorem option_of_parseSetting {option : WrapperOption} {value : Option String} {t : Setting}
    (h : parseSetting P option value = .ok t) : t.option = option := by
  cases value with
  | none =>
    cases option <;> cases h
    rfl
  | some value =>
    cases option <;>
      simp only [parseSetting, WrapperOption.parse, exceptMap_eq_ok, Except.ok.injEq] at h
    case pushUrl | pushJob | metricsFile => rw [← h]; rfl
    all_goals
      obtain ⟨a, -, rfl⟩ := h
      rfl

theorem extractInline_eq (option : WrapperOption) (arg value : String) (s : Extraction) :
    Args.extractInline P arg option.name value s =
      (parseSetting P option (some value)).map (Setting.apply s) := by
  simp only [Args.extractInline, wrapperOption_name]
  cases option <;> simp only [parseSetting, WrapperOption.parse, map_map_eq_bind] <;> rfl

/-- The block for separate values takes the next word, wherever it leads. -/
theorem extractSeparate_eq (option : WrapperOption) (args : List String) (index : ℕ)
    (s : Extraction) :
    Args.extractSeparate P args index option.name s =
      if option.takesValue then
        match args[index + 1]? with
        | some value =>
          (parseSetting P option (some value)).map fun t => (t.apply s, index + 2)
        | none => .error s!"{option.name} requires a value"
      else .ok (Setting.apply s (.pushDeleteOnExit true), index + 1) := by
  simp only [Args.extractSeparate, wrapperOption_name, Args.takeValue]
  cases args[index + 1]? with
  | none => cases option <;> rfl
  | some value =>
    cases option <;> simp only [ok_bind, parseSetting, WrapperOption.parse, map_map_eq_bind] <;> rfl

end

end Iperf3Rs
