import Iperf3Rs.Metrics
import Iperf3Rs.MetricsQueue
import Iperf3Rs.OutputSink
import Iperf3Rs.ScopedEffects

/-! `run_command`, the body of `IperfCommand::run` and of the thread that `IperfCommand::spawn`
starts. Its effects are those on what all runs of the process share, in order, drops included;
what the native calls and the other threads come to is in a `RunEnv`. -/

namespace Iperf3Rs

open Scoped

inductive MetricsMode where
  | disabled
  | interval
  | window (width : Duration)
  deriving DecidableEq

namespace MetricsMode

def hasNonzeroWindow : MetricsMode → Bool
  | .window width => !width.isZero
  | _ => true

/-- `now` is the clock of the check. -/
def validate (limit now : Instant) (mode : MetricsMode) : Except Error Unit :=
  if !mode.hasNonzeroWindow then
    .error ⟨.invalidMetricsMode, "metrics window interval must be greater than zero"⟩
  else
    match mode with
    | .window width =>
      match checkedDeadline limit now width with
      | .ok _ => .ok ()
      | .error e => .error ⟨.invalidMetricsMode, e.message⟩
    | _ => .ok ()

def isEnabled (mode : MetricsMode) : Bool := mode != .disabled

def callbackQueue : MetricsMode → Option MetricsQueue
  | .disabled => none
  | .interval | .window _ => some .all

def pushInterval : MetricsMode → Option Duration
  | .disabled | .interval => none
  | .window width => some width

end MetricsMode

/-- A command with the rest of its settings. Of a direct Pushgateway run only the mode is kept. -/
structure RunRequest extends IperfCommand where
  metricsMode : MetricsMode
  pushgateway : Option MetricsMode
  allowUnboundedServer : Bool

/-- The two `SigpipeGuard`s of a run: that of `run_command`, and that of `IperfTest::run`. -/
inductive Guard where
  | command
  | test
  deriving DecidableEq

/-- `useTest` is a native call on a test. A ready message tells of the stream, or is the text of
an error. -/
inductive RunEffect where
  | ignoreSigpipe (guard : Guard)
  | restoreSigpipe (guard : Guard) (works : Bool)
  | newTest (test : ℕ)
  | useTest (test : ℕ)
  | freeTest (test : ℕ)
  | register (test : ℕ)
  | unregister (test : ℕ)
  | spawnWorker
  | joinWorker
  | detachWorker
  | ready (message : Except String Bool)
  | poison
  deriving DecidableEq

/-- `address` is the new test, and `clock` and `clockAgain` are the clocks of the first check of
the mode and of the second. `served` is what the client or the server returns, and `worker` and
`sinks` are what the worker thread ends with: none stands for a panic. -/
structure RunEnv (F : Type) where
  ignores : Guard → Bool
  restores : Guard → Bool
  address : Option ℕ
  defaults : Bool
  memory : Bool
  role : Role
  oneOff : Bool
  registry : Bool
  limit : Instant
  clock : Instant
  clockAgain : Instant
  thread : Bool
  pushGateway : Except Error Unit
  served : Option (Except Error Unit)
  json : Option String
  worker : Option (Except Error Unit)
  sinks : Option (Except Error Unit)
  events : List (MetricEvent F)
  currentError : String

structure IperfResult (F : Type) where
  role : Role
  jsonOutput : Option String
  metrics : List (MetricEvent F)

/-- What takes the samples: nothing, the event stream with its callback and worker, or the
reporter of a direct Pushgateway run. -/
inductive Reporting where
  | none
  | stream
  | pushReporter
  deriving DecidableEq

structure RunSetup where
  test : ℕ
  reporting : Reporting

def RunSetup.stream (setup : RunSetup) : Bool := setup.reporting = .stream

def RunSetup.pushReporter (setup : RunSetup) : Bool := setup.reporting = .pushReporter

abbrev Run := Scoped RunEffect Error

def internalError (message : String) : Error := ⟨.internal, message⟩

variable {F : Type}

section Setup

variable (env : RunEnv F)

def installSigpipe (guard : Guard) : Run Unit :=
  if env.ignores guard then emit (.ignoreSigpipe guard)
  else fail ⟨.libiperf, "failed to save and ignore SIGPIPE"⟩

def restoreSigpipe (guard : Guard) : Run Unit := do
  emit (.restoreSigpipe guard (env.restores guard))
  if env.restores guard then pure () else fail ⟨.libiperf, "failed to restore SIGPIPE"⟩

def newTest : Run ℕ :=
  match env.address with
  | none => fail (internalError "iperf_new_test returned null")
  | some test => do
    emit (.newTest test)
    unwinding [.freeTest test] do
      emit (.useTest test)
      if env.defaults then pure test
      else fail ⟨.libiperf, "iperf_defaults failed: " ++ env.currentError⟩

def attachCallback (test : ℕ) : Run Unit :=
  if env.registry then emits [.register test, .useTest test]
  else fail (internalError "metrics callback registry is poisoned")

/-- `thread::spawn`, which panics if there is no thread to be had. -/
def spawnThread : Run Unit := if env.thread then emit .spawnWorker else panic

def metricEventStream (mode : MetricsMode) : Run Unit := do
  ofExcept (mode.validate env.limit env.clockAgain)
  spawnThread env

def attachSinks (test : ℕ) (pushInterval : Option Duration) : Run Unit := do
  match pushInterval with
  | some interval => ofExcept ((MetricsMode.window interval).validate env.limit env.clockAgain)
  | none => pure ()
  attachCallback env test
  unwinding [.unregister test] (spawnThread env)

def validatePushgatewayMode (mode : MetricsMode) : Except Error Unit :=
  match mode with
  | .disabled =>
    .error ⟨.invalidMetricsMode, "Pushgateway metrics mode must be Interval or Window"⟩
  | _ => mode.validate env.limit env.clock

def validatePushgatewayRequest (request : RunRequest) : Except Error Unit :=
  match request.pushgateway with
  | none => .ok ()
  | some mode =>
    if request.metricsMode.isEnabled then
      .error (.invalidArgument ("direct Pushgateway delivery cannot be combined with a " ++
        "MetricsStream in the same IperfCommand run"))
    else validatePushgatewayMode env mode

def validateServerLifecycle (request : RunRequest) : Except Error Unit :=
  if env.role = .server ∧ !env.oneOff ∧ !request.allowUnboundedServer then
    .error (.invalidArgument ("IperfCommand server mode must use -1/--one-off or opt in with " ++
      "allow_unbounded_server(true)"))
  else .ok ()

def setupRun (lib : Libiperf) (quoted : String → String) (request : RunRequest) :
    Run RunSetup := do
  ofExcept (request.metricsMode.validate env.limit env.clock)
  ofExcept (validatePushgatewayRequest env request)
  let test ← newTest env
  unwinding [.freeTest test] do
    emit (.useTest test)
    let _ ← ofExcept (setupOutput lib quoted env.memory request.toIperfCommand)
    ofExcept (validateServerLifecycle env request)
    match request.metricsMode.callbackQueue with
    | some _ =>
      attachCallback env test
      unwinding [.unregister test] (metricEventStream env request.metricsMode)
      pure ⟨test, .stream⟩
    | none =>
      match request.pushgateway with
      | some mode =>
        ofExcept env.pushGateway
        attachSinks env test mode.pushInterval
        pure ⟨test, .pushReporter⟩
      | none => pure ⟨test, .none⟩

end Setup

section Command

variable (env : RunEnv F)

def runRole (test : ℕ) : Run Unit :=
  match env.role with
  | .client | .server => do
    emit (.useTest test)
    ofEnd env.served
  | .unknown role =>
    fail (.invalidArgument s!"iperf role was not set by arguments: {role}")

def runTest (test : ℕ) : Run Unit := do
  installSigpipe env .test
  let result ← unwinding [.restoreSigpipe .test (env.restores .test)] (attempt (runRole env test))
  restoreSigpipe env .test
  ofExcept result

/-- What is dropped with the setup while the run is going on, field by field. -/
def RunSetup.drops (setup : RunSetup) : List RunEffect :=
  [.freeTest setup.test] ++
    (if setup.stream then [.unregister setup.test, .detachWorker] else []) ++
    (if setup.pushReporter then [.unregister setup.test, .joinWorker] else [])

/-- The callback goes first, so that the worker comes to its end. -/
def joinWorker (setup : RunSetup) : Run Unit :=
  if setup.stream then do
    emits [.unregister setup.test, .joinWorker]
    match env.worker with
    | some result => ofExcept result
    | none => fail ⟨.worker, "metrics event worker thread panicked"⟩
  else pure ()

def finishReporter (setup : RunSetup) : Run Unit :=
  if setup.pushReporter then do
    emits [.unregister setup.test, .joinWorker]
    match env.sinks with
    | some result => ofExcept result
    | none => fail ⟨.worker, "metrics sink worker thread panicked"⟩
  else pure ()

def notifyReady (ready : Bool) (message : Except String Bool) : Run Unit :=
  emits (if ready then [.ready message] else [])

def reportFailure {α : Type} (ready : Bool) (x : Run α) : Run α := do
  match ← attempt x with
  | .error e => do
    notifyReady ready (.error e.message)
    fail e
  | .ok a => pure a

structure Measured where
  setup : RunSetup
  result : Except Error Unit
  pushResult : Except Error Unit

/-- The part of the run under the guard of `run_command`, which restores it in this part only when
it is dropped. `ready` is whether there is a thread that waits for the message. -/
def measure (lib : Libiperf) (quoted : String → String) (request : RunRequest) (ready : Bool) :
    Run Measured := do
  let setup ← reportFailure ready (setupRun env lib quoted request)
  notifyReady ready (.ok setup.stream)
  let result ← unwinding setup.drops (attempt (runTest env setup.test))
  unwinding [.freeTest setup.test] do
    joinWorker env setup
    let pushResult ← attempt (finishReporter env setup)
    pure ⟨setup, result, pushResult⟩

def runLocked (lib : Libiperf) (quoted : String → String) (request : RunRequest) (ready : Bool) :
    Run (IperfResult F) := do
  reportFailure ready (installSigpipe env .command)
  let measured ← unwinding [.restoreSigpipe .command (env.restores .command)]
    (measure env lib quoted request ready)
  scope (fun _ => [.freeTest measured.setup.test]) do
    restoreSigpipe env .command
    ofExcept measured.result
    ofExcept measured.pushResult
    pure ⟨env.role, env.json, if measured.setup.stream && !ready then env.events else []⟩

/-- A panic poisons the lock, and a poisoned lock is not run under. -/
def runCommand (lib : Libiperf) (quoted : String → String) (request : RunRequest) (ready : Bool)
    (poisoned : Bool) : Run (IperfResult F) :=
  if poisoned then fail (internalError "libiperf run lock is poisoned")
  else scope (fun | .panicked => [.poison] | _ => []) (runLocked env lib quoted request ready)

def RunEffect.message : RunEffect → Option (Except String Bool)
  | .ready message => some message
  | _ => none

def messages {α : Type} (x : Run α) : List (Except String Bool) :=
  x.trace.filterMap RunEffect.message

/-- What `spawn` makes of the first message: whether there is a stream, or an error. -/
def spawned (messages : List (Except String Bool)) : Except Error Bool :=
  match messages with
  | .ok stream :: _ => .ok stream
  | .error text :: _ => .error ⟨.worker, text⟩
  | [] => .error ⟨.worker, "iperf worker exited before setup completed: " ++
      "receiving on an empty and disconnected channel"⟩

end Command

end Iperf3Rs
