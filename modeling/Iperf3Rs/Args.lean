import Iperf3Rs.PushGatewayConfig
import Mathlib.Data.Int.Notation

/-! `extract_app_options_with_env`. One pass over the words finds the boundaries of the options,
and a second pass takes the wrapper options out; an error is its text. `starts` is a history in
both passes: the positions at which a pass has looked for an option. -/

namespace Iperf3Rs

inductive MetricsFileFormat where
  | jsonl
  | prometheus
  deriving DecidableEq

/-- The options that are consumed here and never reach libiperf. -/
inductive WrapperOption where
  | pushUrl
  | pushJob
  | pushLabel
  | pushTimeout
  | pushRetries
  | pushUserAgent
  | pushInterval
  | pushDeleteOnExit
  | metricsFile
  | metricsFormat
  | metricsLabel
  | metricsPrefix
  deriving DecidableEq

/-- The keys the source matches on, the same in all three places. -/
def wrapperOption (key : String) : Option WrapperOption :=
  match key with
  | "--push.url" => some .pushUrl
  | "--push.job" => some .pushJob
  | "--push.label" => some .pushLabel
  | "--push.timeout" => some .pushTimeout
  | "--push.retries" => some .pushRetries
  | "--push.user-agent" => some .pushUserAgent
  | "--push.interval" => some .pushInterval
  | "--push.delete-on-exit" => some .pushDeleteOnExit
  | "--metrics.file" => some .metricsFile
  | "--metrics.format" => some .metricsFormat
  | "--metrics.label" => some .metricsLabel
  | "--metrics.prefix" => some .metricsPrefix
  | _ => none

/-- `iperf3rs_arg_boundary` on words without NUL: how many words an option takes, and whether it
asks for help or the version (positive), is unknown (negative) or none of these. -/
structure ArgBoundary where
  classify : String → Option String → ℕ × ℤ
  span : ∀ word next,
    (classify word next).1 = 1 ∨ ((classify word next).1 = 2 ∧ next.isSome = true)

/-- One that asks for help (1) or the version (2) only, and looks at the next word only to take
it. -/
structure NativeBoundary extends ArgBoundary where
  info : ∀ word next, (classify word next).2 ≤ 2
  alone : ∀ word next, (classify word (some next)).1 = 1 →
    ∀ other, classify word other = classify word (some next)

instance : Coe NativeBoundary ArgBoundary := ⟨NativeBoundary.toArgBoundary⟩

structure AppOptions (Url : Type) where
  pushUrl : Option Url
  pushJob : String
  pushLabels : List (String × String)
  pushTimeout : Duration
  pushRetries : ℕ
  pushUserAgent : String
  metricsPrefix : String
  pushInterval : Option Duration
  pushDeleteOnExit : Bool
  metricsFile : Option String
  metricsFormat : MetricsFileFormat
  metricsLabels : List (String × String)
  showHelp : Bool
  showVersion : Bool

/-- The text of an environment variable, if it is set, or the error of one that is not UTF-8. -/
abbrev Env := String → Except String (Option String)

namespace Args

variable {Url : Type} (B : ArgBoundary) (P : Platform Url)

def hasNul (word : String) : Bool := word.toList.contains (Char.ofNat 0)

def argBoundary (word : String) (next : Option String) : Except String (ℕ × ℤ) :=
  if hasNul word || next.any hasNul then .error "argument contains NUL"
  else .ok (B.classify word next)

def splitLongValue (arg : String) : Option (String × String) :=
  (Text.splitOnce '=' arg).filter fun (key, _) => Text.startsWith key "--"

/-- The value of the option at `index`, and the position after it. -/
def takeValue (args : List String) (index : ℕ) (option : String) : Except String (String × ℕ) :=
  match args[index + 1]? with
  | some value => .ok (value, index + 2)
  | none => .error s!"{option} requires a value"

/-- Whether a wrapper option takes a value. -/
def wrapperValue (key : String) : Option Bool :=
  match wrapperOption key with
  | some .pushDeleteOnExit => some false
  | some _ => some true
  | none => none

/-- The option a word may name, and whether the word holds its value. -/
def optionKey (word : String) : String × Bool :=
  match splitLongValue word with
  | some (key, _) => (key, true)
  | none => (word, false)

structure Boundaries where
  spans : List ℕ
  starts : List ℕ
  showHelp : Bool
  showVersion : Bool

/-- The first pass from `index` on; every iteration uses up one unit of fuel. -/
def argumentBoundariesFrom (args : List String) : ℕ → ℕ → Boundaries → Except String Boundaries
  | 0, _, b => .ok b
  | fuel + 1, index, b =>
    match args[index]? with
    | none => .ok b
    | some word =>
      let b := { b with starts := b.starts ++ [index] }
      if word = "--" then .ok b
      else
        let (key, inline) := optionKey word
        match wrapperValue key with
        | some requiresValue =>
          let width := if requiresValue && !inline && index + 1 < args.length then 2 else 1
          argumentBoundariesFrom args fuel (index + width)
            { b with spans := b.spans.set index 0 }
        | none =>
          match argBoundary B word args[index + 1]? with
          | .error e => .error e
          | .ok (span, info) =>
            let b := { b with spans := b.spans.set index span }
            if 0 < info then .ok { b with showHelp := info == 1, showVersion := info == 2 }
            else if info < 0 then .ok b
            else argumentBoundariesFrom args fuel (index + span) b

def argumentBoundaries (args : List String) : Except String Boundaries :=
  argumentBoundariesFrom B args args.length 0
    { spans := .replicate args.length 1, starts := [], showHelp := false, showVersion := false }

def parseUrl (raw : String) : Except String Url :=
  match PushGatewayConfig.parseEndpoint P raw with
  | .ok url => .ok url
  | .error err => .error ("invalid --push.url URL: " ++ err.message)

def parseDurationNumber (option raw number : String) : Except String ℕ :=
  if number = "" then .error s!"invalid {option} duration: {raw}"
  else match Text.parseUnsigned (2 ^ 64) number with
    | some n => .ok n
    | none => .error s!"invalid {option} duration: {raw}"

inductive DurationUnit where
  | milliseconds
  | seconds
  | minutes

def durationOfSecs (secs : ℕ) : Option Duration :=
  if h : secs < 2 ^ 64 then some (.fromSecs secs h) else none

/-- `None` is the overflow of the `u64` seconds; of the three units only minutes can overflow. -/
def durationFromNumber (number : ℕ) : DurationUnit → Option Duration
  | .milliseconds =>
    if h : number / 1000 < 2 ^ 64 then
      some ⟨number / 1000, 1000000 * (number % 1000), h, by omega⟩
    else none
  | .seconds => durationOfSecs number
  | .minutes => durationOfSecs (60 * number)

def parseDuration (option raw : String) : Except String Duration :=
  let number : String × DurationUnit := match Text.stripSuffix raw "ms" with
    | some number => (number, .milliseconds)
    | none => match Text.stripSuffix raw "s" with
      | some number => (number, .seconds)
      | none => match Text.stripSuffix raw "m" with
        | some number => (number, .minutes)
        | none => (raw, .seconds)
  match parseDurationNumber option raw number.1 with
  | .error e => .error e
  | .ok n => match durationFromNumber n number.2 with
    | some duration => .ok duration
    | none => .error s!"{option} is too large: {raw}"

def parseDurationOption (option raw : String) : Except String Duration :=
  let raw := Text.trim raw
  if raw = "" then .error s!"{option} must not be empty"
  else match parseDuration option raw with
    | .error e => .error e
    | .ok duration =>
      if duration.isZero then .error s!"{option} must be greater than zero"
      else match P.checkedDeadline duration with
        | .error err => .error s!"invalid {option}: {err.message}"
        | .ok _ => .ok duration

def parseRetries (option raw : String) : Except String ℕ :=
  match Text.parseUnsigned (2 ^ 32) (Text.trim raw) with
  | none => .error s!"{option} must be an integer between 0 and {PushGatewayConfig.maxRetries}"
  | some retries => match PushGatewayConfig.validateRetries retries with
    | .ok () => .ok retries
    | .error _ => .error s!"{option} must be at most {PushGatewayConfig.maxRetries}"

def parseBoolLiteral (raw : String) : Option Bool :=
  if ["1", "true", "yes", "on"].any (Text.eqIgnoreAsciiCase raw) then some true
  else if ["0", "false", "no", "off"].any (Text.eqIgnoreAsciiCase raw) then some false
  else none

def parseBoolOption (option raw : String) : Except String Bool :=
  match parseBoolLiteral (Text.trim raw) with
  | some value => .ok value
  | none => .error s!"{option} must be one of true, false, 1, 0, yes, no, on, or off"

def parseMetricsFormat (option raw : String) : Except String MetricsFileFormat :=
  match Text.trim raw with
  | "jsonl" => .ok .jsonl
  | "prometheus" => .ok .prometheus
  | _ => .error s!"{option} must be one of jsonl or prometheus"

def parseUserAgent (option raw : String) : Except String String :=
  let value := Text.trim raw
  match PushGatewayConfig.validateUserAgent value with
  | .ok () => .ok value
  | .error err => .error (err.message.replace "Pushgateway User-Agent" option)

def parseMetricPrefix (option raw : String) : Except String String :=
  let value := Text.trim raw
  match validateMetricPrefix value with
  | .ok () => .ok value
  | .error _ => .error s!"invalid {option} metric prefix '{value}'"

def parseLabel (option raw : String) (reserveJob : Bool) : Except String (String × String) :=
  match Text.splitOnce '=' raw with
  | none => .error s!"{option} requires KEY=VALUE"
  | some (name, value) =>
    if !PushGatewayConfig.isValidLabelName name then .error s!"invalid {option} name '{name}'"
    else if reserveJob && PushGatewayConfig.isReservedLabelName name then
      .error s!"{option} name '{name}' is reserved"
    else if value = "" then .error s!"{option} value for '{name}' must not be empty"
    else .ok (name, value)

def parseEnvLabels (option raw : String) (reserveJob : Bool) :
    Except String (List (String × String)) :=
  if Text.trim raw = "" then .ok []
  else ((Text.split ',' raw).map Text.trim).mapM fun label => parseLabel option label reserveJob

def rejectDuplicateLabels (option : String) (labels : List (String × String)) :
    Except String Unit :=
  rejectDuplicates (fun name => s!"duplicate {option} name '{name}'") [] labels

end Args

end Iperf3Rs
