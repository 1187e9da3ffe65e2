import Iperf3Rs.CliSinks
import Iperf3Rs.RunResults

/-! `cli::run` and `cli::main`: from the words of the command line to the exit status. The effects
are those of a run of `IperfTest` and those of the CLI alone, in order, drops included. -/

namespace Iperf3Rs

open Scoped

/-- What a call of the CLI runtime has not undone at its end: a signal disposition that could not be
put back, and the pidfile. -/
structure Leftover where
  handlers : Bool
  pidfile : Bool
  deriving DecidableEq

def Leftover.none : Leftover := ⟨false, false⟩

/-- `prepare` and `cleanup` are the calls of the CLI runtime: whether the first works, whether it
has made the process a daemon, which nothing undoes, and what is left behind a failure. A client is
the HTTP client of a Pushgateway, which has a thread of its own. -/
inductive CliEffect where
  | run (e : RunEffect)
  | prepare (test : ℕ) (daemon works : Bool) (left : Leftover)
  | cleanup (left : Leftover)
  | openClient
  | closeClient
  | createFile (path : String)
  | printHelp (usage : String)
  | printVersion
  | printError (text : String)
  deriving DecidableEq

/-- Of a Pushgateway, `pushGateway` is what the client builder comes to. `undone` is what a failing
`iperf3rs_cli_prepare` leaves, and `cleaned` what `iperf3rs_cli_cleanup` leaves, which reports all
of it as its error. -/
structure CliEnv (F : Type) extends RunEnv F where
  usage : Except Error String
  daemon : Bool
  prepares : Bool
  undone : Leftover
  cleaned : Leftover
  created : Except Error Unit

/-- The two ways `cli::run` ends without an error. `process::exit(EXIT_OPTION_ERROR)` drops
nothing. -/
inductive Stop where
  | returned
  | exited
  deriving DecidableEq

structure CliMeasured where
  test : ℕ
  result : Except Error Unit
  reporterResult : Except Error Unit

inductive Reached where
  | stopped (stop : Stop)
  | measured (measured : CliMeasured)

/-- The guards are still there, to be taken over or left by `process::exit`. -/
def Reached.kept : Reached → Bool
  | .stopped .returned => false
  | _ => true

abbrev CliRun := Scoped CliEffect Error

namespace Cli

/-- Arguments that are not UTF-8 are `none`. -/
def decodeArgs (raw : List (Option String)) : Except String (List String) :=
  raw.zipIdx.mapM fun (arg, index) =>
    match arg with
    | some arg => .ok arg
    | none => .error s!"argument {index} must be valid UTF-8"

section Run

variable {Url F : Type} (P : Platform Url) (env : CliEnv F) (app : AppOptions Url)

def printHelp : CliRun Stop := do
  let usage ← ofExcept env.usage
  emit (.printHelp usage)
  pure .returned

def printVersion : CliRun Stop := do
  emit .printVersion
  pure .returned

def prepare (test : ℕ) : CliRun Unit := do
  emit (.prepare test env.daemon env.prepares env.undone)
  if env.prepares then pure ()
  else fail ⟨.libiperf, "failed to prepare CLI runtime: " ++ env.currentError⟩

def cleanup : CliRun Unit := do
  emit (.cleanup env.cleaned)
  if env.cleaned = .none then pure () else fail ⟨.libiperf, "failed to clean up CLI runtime"⟩

/-- `PushGateway::new` for the URL, if there is one. -/
def openGateway : CliRun Unit :=
  match app.pushUrl with
  | none => pure ()
  | some pushUrl => do
    ofExcept ((pushGatewayConfig app pushUrl).validate P)
    ofExcept env.pushGateway
    emit .openClient

/-- `MetricsFileSink::with_prefix_and_labels` for the file, if there is one. -/
def openFile : CliRun Unit :=
  match app.metricsFile with
  | none => pure ()
  | some path => do
    let _ ← ofExcept (metricsFileEncoder app)
    ofExcept env.created
    emit (.createFile path)

def hasSink : Bool := app.pushUrl.isSome || app.metricsFile.isSome

def attachReporter (test : ℕ) : CliRun Unit :=
  if hasSink app then
    lift .run (attachSinks env.toRunEnv test (app.pushUrl.bind fun _ => app.pushInterval))
  else pure ()

def dropClient : List CliEffect := if app.pushUrl.isSome then [.closeClient] else []

/-- The worker comes to its end behind its last sample, and the client with it. -/
def stopReporter (test : ℕ) : List CliEffect :=
  if hasSink app then [.run (.unregister test)] ++ dropClient app ++ [.run .joinWorker] else []

def finishReporter (test : ℕ) : CliRun Unit := do
  emits (stopReporter app test)
  if hasSink app then
    match env.sinks with
    | some result => ofExcept result
    | none => fail ⟨.worker, "metrics sink worker thread panicked"⟩
  else pure ()

/-- The part of the run under the guard of the CLI runtime. -/
def measure (test : ℕ) : CliRun CliMeasured := do
  openGateway P env app
  unwinding (dropClient app) do
    openFile env app
    attachReporter env app test
  let result ← unwinding (stopReporter app test) (attempt (lift .run (runTest env.toRunEnv test)))
  let reporterResult ← attempt (finishReporter env app test)
  pure ⟨test, result, reporterResult⟩

def runParsed (test : ℕ) (outcome : ParseOutcome) : CliRun Reached :=
  match outcome with
  | .parsed => do
    prepare env test
    let measured ← unwinding [.cleanup env.cleaned] (measure P env app test)
    pure (.measured measured)
  | .help => do
    let stop ← printHelp env
    pure (.stopped stop)
  | .version => do
    let stop ← printVersion
    pure (.stopped stop)
  | .usageError => pure (.stopped .exited)

/-- The part of the run under the guard of SIGPIPE. -/
def runGuarded (lib : Libiperf) (quoted : String → String) (args : List String) :
    CliRun Reached := do
  let test ← mapError (fun e => { e with message := "failed to create iperf test: " ++ e.message })
    (lift .run (newTest env.toRunEnv))
  guarding Reached.kept [.run (.freeTest test)] do
    emit (.run (.useTest test))
    let outcome ← ofExcept (parseArguments lib quoted args).1
    runParsed P env app test outcome

/-- The end of the run behind its last thread. A guard that has been used up drops nothing. -/
def finish (measured : CliMeasured) : CliRun Unit := do
  unwinding [.run (.freeTest measured.test), .run (.restoreSigpipe .command (env.restores .command))]
    (cleanup env)
  scope (fun _ => [.run (.freeTest measured.test)]) do
    lift .run (restoreSigpipe env.toRunEnv .command)
    ofExcept measured.result
    ofExcept measured.reporterResult

def runAccepted (lib : Libiperf) (quoted : String → String) (args : List String) :
    CliRun Stop := do
  lift .run (installSigpipe env.toRunEnv .command)
  let reached ← guarding Reached.kept [.run (.restoreSigpipe .command (env.restores .command))]
    (runGuarded P env app lib quoted args)
  match reached with
  | .stopped stop => pure stop
  | .measured measured => do
    finish env measured
    pure .returned

end Run

section Main

variable {Url F : Type} (B : ArgBoundary) (P : Platform Url) (vars : Env) (lib : Libiperf)
  (quoted : String → String) (env : CliEnv F) (raw : List (Option String))

def accept : Except String (AppOptions Url × List String) := do
  let args ← decodeArgs raw
  Args.extractAppOptionsWithEnv B P args vars

def run : CliRun Stop :=
  match accept B P vars raw with
  | .error text => do
    emit (.printError text)
    pure .exited
  | .ok (app, args) =>
    if app.showHelp then printHelp env
    else if app.showVersion then printVersion
    else runAccepted P env app lib quoted args

def exitOptionError : ℕ := 1

def exitIperfError : ℕ := 2

/-- The exit status. That of a panic is the runtime's. -/
def exitCode : Ending Error Stop → ℕ
  | .ok .returned => 0
  | .ok .exited => exitOptionError
  | .error _ => exitIperfError
  | .panicked => 101

/-- `cli::main`: the effects of the process, and its exit status. -/
def main : List CliEffect × ℕ :=
  let run := run B P vars lib quoted env raw
  let report := match run.ending with
    | .error e => [.printError e.message]
    | _ => []
  (run.trace ++ report, exitCode run.ending)

end Main

section Endings

variable {Url F : Type} {P : Platform Url} {env : CliEnv F} {app : AppOptions Url}

theorem prepare_ok {test : ℕ} {u : Unit} :
    (prepare env test).ending = .ok u ↔ env.prepares = true := by
  rw [prepare, ending_bind_ok]
  by_cases h : env.prepares = true
  · simp [h, ending_emit, ending_pure_ok]
  · simp [h, ending_fail_ne]

theorem cleanup_ok {u : Unit} : (cleanup env).ending = .ok u ↔ env.cleaned = .none := by
  rw [cleanup, ending_bind_ok]
  by_cases h : env.cleaned = .none
  · simp [h, ending_emit, ending_pure_ok]
  · simp [h, ending_fail_ne]

theorem finishReporter_ok {test : ℕ} {u : Unit} :
    (finishReporter env app test).ending = .ok u ↔
      (hasSink app = true → env.sinks = some (.ok ())) := by
  rw [finishReporter, ending_bind_ok]
  by_cases h : hasSink app = true
  · simp only [h, if_true]
    cases env.sinks with
    | none => simp [ending_emits, ending_fail_ne]
    | some result => simp [ending_emits, ending_ofExcept_ok]
  · simp [h, ending_emits, ending_pure_ok]

/-- A measurement is taken to its end whether or not the test and the sinks do well. -/
theorem measure_ok {test : ℕ} {measured : CliMeasured} :
    (measure P env app test).ending = .ok measured ↔
      (openGateway P env app).ending = .ok () ∧ (openFile env app).ending = .ok () ∧
      (attachReporter env app test).ending = .ok () ∧
      (attempt (runTest env.toRunEnv test)).ending = .ok measured.result ∧
      (attempt (finishReporter env app test)).ending = .ok measured.reporterResult ∧
      measured.test = test := by
  have hlift : (attempt (lift CliEffect.run (runTest env.toRunEnv test))).ending =
      (attempt (runTest env.toRunEnv test)).ending := by
    rw [attempt, attempt, ending_lift]
    cases (runTest env.toRunEnv test).ending <;> rfl
  simp only [measure, ending_bind_ok, ending_unwinding, hlift, ending_pure_ok, Unique.exists_iff,
    PUnit.default_eq_unit]
  constructor
  · rintro ⟨hgateway, ⟨hfile, hattach⟩, result, hresult, reporterResult, hreporter, rfl⟩
    exact ⟨hgateway, hfile, hattach, hresult, hreporter, rfl⟩
  · rintro ⟨hgateway, hfile, hattach, hresult, hreporter, rfl⟩
    exact ⟨hgateway, ⟨hfile, hattach⟩, _, hresult, _, hreporter, rfl⟩

theorem finish_ok {measured : CliMeasured} {u : Unit} : (finish env measured).ending = .ok u ↔
    env.cleaned = .none ∧ env.restores .command = true ∧ measured.result = .ok () ∧
      measured.reporterResult = .ok () := by
  simp only [finish, ending_bind_ok, ending_unwinding, ending_scope, ending_lift, cleanup_ok,
    restoreSigpipe_ok, ending_ofExcept_ok, Unique.exists_iff, PUnit.default_eq_unit]

theorem runGuarded_ok {lib : Libiperf} {quoted : String → String} {args : List String}
    {reached : Reached} : (runGuarded P env app lib quoted args).ending = .ok reached ↔
      ∃ test outcome, env.address = some test ∧ env.defaults = true ∧
        (parseArguments lib quoted args).1 = .ok outcome ∧
        (runParsed P env app test outcome).ending = .ok reached := by
  simp only [runGuarded, ending_bind_ok, ending_mapError_ok, ending_lift, newTest_ok,
    ending_guarding, ending_emit, ending_ofExcept_ok]
  constructor
  · rintro ⟨test, ⟨haddress, hdefaults⟩, _, -, outcome, houtcome, h⟩
    exact ⟨test, outcome, haddress, hdefaults, houtcome, h⟩
  · rintro ⟨test, outcome, haddress, hdefaults, houtcome, h⟩
    exact ⟨test, ⟨haddress, hdefaults⟩, (), trivial, outcome, houtcome, h⟩

theorem runAccepted_ok {lib : Libiperf} {quoted : String → String} {args : List String}
    {stop : Stop} : (runAccepted P env app lib quoted args).ending = .ok stop ↔
      env.ignores .command = true ∧
        ((runGuarded P env app lib quoted args).ending = .ok (.stopped stop) ∨
          stop = .returned ∧ ∃ measured,
            (runGuarded P env app lib quoted args).ending = .ok (.measured measured) ∧
            (finish env measured).ending = .ok ()) := by
  simp only [runAccepted, ending_bind_ok, ending_lift, installSigpipe_ok, ending_guarding,
    Unique.exists_iff]
  refine and_congr_right fun _ => ?_
  constructor
  · rintro ⟨reached, hreached, h⟩
    cases reached with
    | stopped stopped =>
      rw [ending_pure_ok.mp h] at hreached
      exact .inl hreached
    | measured measured =>
      obtain ⟨_, hfinish, h⟩ := ending_bind_ok.mp h
      exact .inr ⟨(ending_pure_ok.mp h).symm, measured, hreached, hfinish⟩
  · rintro (hreached | ⟨rfl, measured, hreached, hfinish⟩)
    · exact ⟨_, hreached, rfl⟩
    · exact ⟨_, hreached, ending_bind_ok.mpr ⟨(), hfinish, rfl⟩⟩

theorem runParsed_measured {test : ℕ} {measured : CliMeasured} :
    (runParsed P env app test .parsed).ending = .ok (.measured measured) ↔
      env.prepares = true ∧ (measure P env app test).ending = .ok measured := by
  simp [runParsed, ending_bind_ok, ending_unwinding, prepare_ok, ending_pure_ok,
    Unique.exists_iff]

theorem runParsed_stopped {test : ℕ} {stop : Stop} :
    (runParsed P env app test .parsed).ending ≠ .ok (.stopped stop) := by
  simp [runParsed, ending_bind_ok, ending_pure_ok]

theorem exitCode_zero {ending : Ending Error Stop} :
    exitCode ending = 0 ↔ ending = .ok .returned := by
  cases ending with
  | ok stop => cases stop <;> simp [exitCode, exitOptionError]
  | error e => simp [exitCode, exitIperfError]
  | panicked => simp [exitCode]

theorem exitCode_one {ending : Ending Error Stop} :
    exitCode ending = 1 ↔ ending = .ok .exited := by
  cases ending with
  | ok stop => cases stop <;> simp [exitCode, exitOptionError]
  | error e => simp [exitCode, exitIperfError]
  | panicked => simp [exitCode]

end Endings

end Cli

end Iperf3Rs
