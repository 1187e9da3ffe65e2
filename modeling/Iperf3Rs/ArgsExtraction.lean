import Iperf3Rs.Args

/-! The second pass of `extract_app_options_with_env`, the environment defaults and the checks
across options. The two blocks of the pass, for `--option=value` and for `--option value`, are
kept apart as in the source. -/

namespace Iperf3Rs

structure Extraction where
  passThrough : List String
  starts : List ℕ
  pushUrl : Option String
  pushJob : Option String
  pushLabels : List (String × String)
  pushTimeout : Option Duration
  pushRetries : Option ℕ
  pushUserAgent : Option String
  metricsPrefix : Option String
  pushInterval : Option Duration
  pushDeleteOnExit : Option Bool
  metricsFile : Option String
  metricsFormat : Option MetricsFileFormat
  metricsLabels : List (String × String)
  sawPushJob : Bool
  sawPushLabel : Bool
  sawPushSetting : Bool
  sawMetricsSetting : Bool
  sawMetricsLabel : Bool
  sawMetricPrefix : Bool

def Extraction.start (program : String) (pushLabels metricsLabels : List (String × String)) :
    Extraction where
  passThrough := [program]
  starts := []
  pushUrl := none
  pushJob := none
  pushLabels := pushLabels
  pushTimeout := none
  pushRetries := none
  pushUserAgent := none
  metricsPrefix := none
  pushInterval := none
  pushDeleteOnExit := none
  metricsFile := none
  metricsFormat := none
  metricsLabels := metricsLabels
  sawPushJob := false
  sawPushLabel := !pushLabels.isEmpty
  sawPushSetting := false
  sawMetricsSetting := false
  sawMetricsLabel := !metricsLabels.isEmpty
  sawMetricPrefix := false

namespace Args

variable {Url : Type} (B : ArgBoundary) (P : Platform Url)

def extractInline (arg key value : String) (s : Extraction) : Except String Extraction :=
  match wrapperOption key with
  | some .pushUrl => .ok { s with pushUrl := some value }
  | some .pushJob => .ok { s with pushJob := some value, sawPushJob := true }
  | some .pushLabel => do
    let label ← parseLabel "--push.label" value true
    .ok { s with pushLabels := s.pushLabels ++ [label], sawPushLabel := true }
  | some .metricsLabel => do
    let label ← parseLabel "--metrics.label" value false
    .ok { s with metricsLabels := s.metricsLabels ++ [label], sawMetricsLabel := true }
  | some .pushTimeout => do
    let timeout ← parseDurationOption P "--push.timeout" value
    .ok { s with pushTimeout := some timeout, sawPushSetting := true }
  | some .pushRetries => do
    let retries ← parseRetries "--push.retries" value
    .ok { s with pushRetries := some retries, sawPushSetting := true }
  | some .pushUserAgent => do
    let userAgent ← parseUserAgent "--push.user-agent" value
    .ok { s with pushUserAgent := some userAgent, sawPushSetting := true }
  | some .metricsPrefix => do
    let metricPrefix ← parseMetricPrefix "--metrics.prefix" value
    .ok { s with metricsPrefix := some metricPrefix, sawMetricPrefix := true }
  | some .pushInterval => do
    let interval ← parseDurationOption P "--push.interval" value
    .ok { s with pushInterval := some interval, sawPushSetting := true }
  | some .pushDeleteOnExit => do
    let delete ← parseBoolOption "--push.delete-on-exit" value
    .ok { s with pushDeleteOnExit := some delete, sawPushSetting := true }
  | some .metricsFile => .ok { s with metricsFile := some value }
  | some .metricsFormat => do
    let format ← parseMetricsFormat "--metrics.format" value
    .ok { s with metricsFormat := some format, sawMetricsSetting := true }
  | none => .ok { s with passThrough := s.passThrough ++ [arg] }

def extractSeparate (args : List String) (index : ℕ) (arg : String) (s : Extraction) :
    Except String (Extraction × ℕ) :=
  match wrapperOption arg with
  | some .pushUrl => do
    let (value, index) ← takeValue args index "--push.url"
    .ok ({ s with pushUrl := some value }, index)
  | some .pushJob => do
    let (value, index) ← takeValue args index "--push.job"
    .ok ({ s with pushJob := some value, sawPushJob := true }, index)
  | some .pushLabel => do
    let (value, index) ← takeValue args index "--push.label"
    let label ← parseLabel "--push.label" value true
    .ok ({ s with pushLabels := s.pushLabels ++ [label], sawPushLabel := true }, index)
  | some .metricsLabel => do
    let (value, index) ← takeValue args index "--metrics.label"
    let label ← parseLabel "--metrics.label" value false
    .ok ({ s with metricsLabels := s.metricsLabels ++ [label], sawMetricsLabel := true }, index)
  | some .pushTimeout => do
    let (value, index) ← takeValue args index "--push.timeout"
    let timeout ← parseDurationOption P "--push.timeout" value
    .ok ({ s with pushTimeout := some timeout, sawPushSetting := true }, index)
  | some .pushRetries => do
    let (value, index) ← takeValue args index "--push.retries"
    let retries ← parseRetries "--push.retries" value
    .ok ({ s with pushRetries := some retries, sawPushSetting := true }, index)
  | some .pushUserAgent => do
    let (value, index) ← takeValue args index "--push.user-agent"
    let userAgent ← parseUserAgent "--push.user-agent" value
    .ok ({ s with pushUserAgent := some userAgent, sawPushSetting := true }, index)
  | some .metricsPrefix => do
    let (value, index) ← takeValue args index "--metrics.prefix"
    let metricPrefix ← parseMetricPrefix "--metrics.prefix" value
    .ok ({ s with metricsPrefix := some metricPrefix, sawMetricPrefix := true }, index)
  | some .pushInterval => do
    let (value, index) ← takeValue args index "--push.interval"
    let interval ← parseDurationOption P "--push.interval" value
    .ok ({ s with pushInterval := some interval, sawPushSetting := true }, index)
  | some .pushDeleteOnExit =>
    .ok ({ s with pushDeleteOnExit := some true, sawPushSetting := true }, index + 1)
  | some .metricsFile => do
    let (value, index) ← takeValue args index "--metrics.file"
    .ok ({ s with metricsFile := some value }, index)
  | some .metricsFormat => do
    let (value, index) ← takeValue args index "--metrics.format"
    let format ← parseMetricsFormat "--metrics.format" value
    .ok ({ s with metricsFormat := some format, sawMetricsSetting := true }, index)
  | none => .ok ({ s with passThrough := s.passThrough ++ [arg] }, index + 1)

/-- The second pass from `index` on; every iteration uses up one unit of fuel. -/
def extractFrom (args : List String) (spans : List ℕ) :
    ℕ → ℕ → Extraction → Except String Extraction
  | 0, _, s => .ok s
  | fuel + 1, index, s =>
    match args[index]? with
    | none => .ok s
    | some arg =>
      let s := { s with starts := s.starts ++ [index] }
      if arg = "--" then .ok { s with passThrough := s.passThrough ++ args.drop index }
      else
        let span := spans.getD index 0
        if span ≠ 0 then
          extractFrom args spans fuel (index + span)
            { s with passThrough := s.passThrough ++ (args.drop index).take span }
        else
          match splitLongValue arg with
          | some (key, value) =>
            match extractInline P arg key value s with
            | .error e => .error e
            | .ok s => extractFrom args spans fuel (index + 1) s
          | none =>
            match extractSeparate P args index arg s with
            | .error e => .error e
            | .ok (s, index) => extractFrom args spans fuel index s

def envDefault {α : Type} (cli : Option α) (key : String) (env : Env)
    (parse : String → String → Except String α) : Except String (Option α) :=
  match cli with
  | some value => .ok (some value)
  | none =>
    match env key with
    | .error e => .error e
    | .ok none => .ok none
    | .ok (some raw) => (parse key raw).map some

def envLabels (env : Env) (key : String) (reserveJob : Bool) :
    Except String (List (String × String)) :=
  match env key with
  | .error e => .error e
  | .ok none => .ok []
  | .ok (some raw) => parseEnvLabels key raw reserveJob

/-- The options with their defaults, and whether a metrics setting has been seen. -/
def mergeEnvironment (env : Env) (s : Extraction) : Except String (AppOptions Url × Bool) := do
  let pushTimeout ← envDefault s.pushTimeout "IPERF3_PUSH_TIMEOUT" env (parseDurationOption P)
  let pushRetries ← envDefault s.pushRetries "IPERF3_PUSH_RETRIES" env parseRetries
  let pushUserAgent ← envDefault s.pushUserAgent "IPERF3_PUSH_USER_AGENT" env parseUserAgent
  let metricsPrefix ← envDefault s.metricsPrefix "IPERF3_METRICS_PREFIX" env parseMetricPrefix
  let pushInterval ← envDefault s.pushInterval "IPERF3_PUSH_INTERVAL" env (parseDurationOption P)
  let pushDeleteOnExit ←
    envDefault s.pushDeleteOnExit "IPERF3_PUSH_DELETE_ON_EXIT" env parseBoolOption
  let metricsFormat ← envDefault s.metricsFormat "IPERF3_METRICS_FORMAT" env parseMetricsFormat
  let pushUrl ← envDefault s.pushUrl "IPERF3_PUSH_URL" env fun _ raw => .ok raw
  let pushUrl ← pushUrl.mapM (parseUrl P)
  let pushJob ← envDefault s.pushJob "IPERF3_PUSH_JOB" env fun _ raw => .ok raw
  let metricsFile ← envDefault s.metricsFile "IPERF3_METRICS_FILE" env fun _ raw => .ok raw
  .ok (
    { pushUrl := pushUrl
      pushJob := pushJob.getD PushGatewayConfig.defaultJob
      pushLabels := s.pushLabels
      pushTimeout := pushTimeout.getD PushGatewayConfig.defaultTimeout
      pushRetries := pushRetries.getD PushGatewayConfig.defaultRetries
      pushUserAgent := pushUserAgent.getD PushGatewayConfig.defaultUserAgent
      metricsPrefix := metricsPrefix.getD PushGatewayConfig.defaultMetricPrefix
      pushInterval := pushInterval
      pushDeleteOnExit := pushDeleteOnExit.getD false
      metricsFile := metricsFile
      metricsFormat := metricsFormat.getD .jsonl
      metricsLabels := s.metricsLabels
      showHelp := false
      showVersion := false },
    s.sawMetricsSetting || metricsFormat.isSome)

def checkOptions (s : Extraction) (app : AppOptions Url) (sawMetricsSetting : Bool) :
    Except String Unit :=
  if app.pushUrl.isNone && s.sawPushJob then
    .error "--push.job requires --push.url or IPERF3_PUSH_URL"
  else if app.pushUrl.isNone && s.sawPushLabel then
    .error "--push.label requires --push.url or IPERF3_PUSH_URL"
  else if app.pushUrl.isNone && s.sawPushSetting then
    .error "push settings require --push.url or IPERF3_PUSH_URL"
  else if app.metricsFile.isNone && sawMetricsSetting then
    .error "metrics settings require --metrics.file or IPERF3_METRICS_FILE"
  else if app.metricsFile.isNone && s.sawMetricsLabel then
    .error "--metrics.label requires --metrics.file or IPERF3_METRICS_FILE"
  else if s.sawMetricsLabel && app.metricsFormat ≠ .prometheus then
    .error "--metrics.label requires --metrics.format prometheus"
  else if app.pushUrl.isNone && app.metricsFile.isNone && s.sawMetricPrefix then
    .error <| "metric prefix requires --metrics.file, IPERF3_METRICS_FILE, --push.url, or " ++
      "IPERF3_PUSH_URL"
  else if app.pushUrl.isSome && app.pushJob = "" then
    .error "--push.job must not be empty when --push.url is set"
  else do
    rejectDuplicateLabels "--push.label" app.pushLabels
    rejectDuplicateLabels "--metrics.label" app.metricsLabels

def informationOptions (showHelp showVersion : Bool) : AppOptions Url where
  pushUrl := none
  pushJob := PushGatewayConfig.defaultJob
  pushLabels := []
  pushTimeout := PushGatewayConfig.defaultTimeout
  pushRetries := PushGatewayConfig.defaultRetries
  pushUserAgent := PushGatewayConfig.defaultUserAgent
  metricsPrefix := PushGatewayConfig.defaultMetricPrefix
  pushInterval := none
  pushDeleteOnExit := false
  metricsFile := none
  metricsFormat := .jsonl
  metricsLabels := []
  showHelp := showHelp
  showVersion := showVersion

def resolveOptions (env : Env) (s : Extraction) :
    Except String (AppOptions Url × List String) := do
  let (app, sawMetricsSetting) ← mergeEnvironment P env s
  checkOptions s app sawMetricsSetting
  .ok (app, s.passThrough)

def extractAppOptionsWithEnv (args : List String) (env : Env) :
    Except String (AppOptions Url × List String) :=
  match args with
  | [] => .error "missing argv[0]"
  | program :: rest => do
    let boundaries ← argumentBoundaries B rest
    if boundaries.showHelp || boundaries.showVersion then
      .ok (informationOptions boundaries.showHelp boundaries.showVersion, [program])
    else
      let pushLabels ← envLabels env "IPERF3_PUSH_LABELS" true
      let metricsLabels ← envLabels env "IPERF3_METRICS_LABELS" false
      let s ← extractFrom P rest boundaries.spans rest.length 0
        (.start program pushLabels metricsLabels)
      resolveOptions P env s

end Args

end Iperf3Rs
