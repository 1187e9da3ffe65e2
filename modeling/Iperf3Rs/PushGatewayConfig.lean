import Iperf3Rs.Clock
import Iperf3Rs.Labels

/-! The Pushgateway configuration and its validation. What the URL library and the platform clock
answer is a parameter. `checkedDeadline` stands for one reading of the clock. -/

namespace Iperf3Rs

structure Platform (Url : Type) where
  parseUrl : String → Except String Url
  scheme : Url → String
  hostStr : Url → Option String
  checkedDeadline : Duration → Except Error Instant

structure PushGatewayConfig (Url : Type) where
  endpoint : Url
  job : String
  labels : List (String × String)
  timeout : Duration
  retries : ℕ
  userAgent : String
  metricPrefix : String
  deleteOnFinish : Bool

def isValidMetricPrefix (name : String) : Bool := isIdentifier name

def validateMetricPrefix (name : String) : Except Error Unit :=
  if isValidMetricPrefix name then .ok ()
  else .error (.invalidArgument s!"invalid Prometheus metric prefix '{name}'")

namespace PushGatewayConfig

def defaultJob : String := "iperf3"

def defaultMetricPrefix : String := "iperf3"

def defaultRetries : ℕ := 0

def maxRetries : ℕ := 10

def defaultTimeout : Duration := .fromSecs 5 (by decide)

def defaultUserAgent : String := "iperf3-rs/1.0.4"

variable {Url : Type} (P : Platform Url)

def new (endpoint : Url) : PushGatewayConfig Url where
  endpoint := endpoint
  job := defaultJob
  labels := []
  timeout := defaultTimeout
  retries := defaultRetries
  userAgent := defaultUserAgent
  metricPrefix := defaultMetricPrefix
  deleteOnFinish := false

def parseEndpoint (raw : String) : Except Error Url :=
  let raw := Text.trim raw
  if raw = "" then .error (.invalidArgument "Pushgateway endpoint must not be empty")
  else
    let withScheme :=
      if Text.startsWith raw "http://" || Text.startsWith raw "https://" then raw
      else "http://" ++ raw
    match P.parseUrl withScheme with
    | .ok url => .ok url
    | .error _ => .error (.invalidArgument "invalid Pushgateway endpoint URL")

def validateEndpoint (endpoint : Url) : Except Error Unit :=
  if P.scheme endpoint = "http" ∨ P.scheme endpoint = "https" then
    if (P.hostStr endpoint).isNone then
      .error (.invalidArgument "Pushgateway endpoint must include a host")
    else .ok ()
  else
    .error (.invalidArgument
      s!"Pushgateway endpoint scheme must be http or https, got '{P.scheme endpoint}'")

def validateJob (job : String) : Except Error Unit :=
  if job = "" then .error (.invalidArgument "Pushgateway job name must not be empty") else .ok ()

def isValidLabelName (name : String) : Bool := isIdentifier name

def isReservedLabelName (name : String) : Bool := name == "job" || Text.startsWith name "__"

def validateLabel (name value : String) : Except Error Unit :=
  if !isValidLabelName name then
    .error (.invalidArgument s!"invalid Pushgateway label name '{name}'")
  else if isReservedLabelName name then
    .error (.invalidArgument s!"Pushgateway label name '{name}' is reserved")
  else if value = "" then
    .error (.invalidArgument s!"Pushgateway label value for '{name}' must not be empty")
  else .ok ()

def rejectDuplicateLabels (labels : List (String × String)) : Except Error Unit :=
  rejectDuplicates
    (fun name => .invalidArgument s!"duplicate Pushgateway label name '{name}'") [] labels

def validateLabels (labels : List (String × String)) : Except Error Unit := do
  labels.forM fun (name, value) => validateLabel name value
  rejectDuplicateLabels labels

def validateTimeout (timeout : Duration) : Except Error Unit := do
  if timeout.isZero then
    throw (.invalidArgument "Pushgateway timeout must be greater than zero")
  let _ ← P.checkedDeadline timeout

def validateRetries (retries : ℕ) : Except Error Unit :=
  if maxRetries < retries then
    .error (.invalidArgument s!"Pushgateway retries must be at most {maxRetries}")
  else .ok ()

def validateUserAgent (value : String) : Except Error Unit :=
  if value = "" then .error (.invalidArgument "Pushgateway User-Agent must not be empty")
  else if value.toList.any Text.isControl then
    .error (.invalidArgument "Pushgateway User-Agent must not contain control characters")
  else .ok ()

def validate (config : PushGatewayConfig Url) : Except Error Unit := do
  validateEndpoint P config.endpoint
  validateJob config.job
  validateLabels config.labels
  validateTimeout P config.timeout
  validateRetries config.retries
  validateUserAgent config.userAgent
  validateMetricPrefix config.metricPrefix

end PushGatewayConfig

end Iperf3Rs
