import Iperf3Rs.ArgForwarding
import Iperf3Rs.CliRun
import Iperf3Rs.RunLifecycle

/-! What a run of the CLI does to its process, at whatever point it ends: in which order the
runtime, the threads, the metrics file and the test come and go, and what is left of them. -/

namespace Iperf3Rs

open Scoped

/-- The CLI runtime, with whether its `prepare` has made the process a daemon. It is over behind a
`prepare` that fails and behind `cleanup`, and what they have not undone is left. -/
inductive RuntimePhase where
  | unprepared
  | prepared (daemon : Bool)
  | over (daemon : Bool) (left : Leftover)
  deriving DecidableEq

namespace RuntimePhase

def isPrepared : RuntimePhase → Bool
  | .prepared _ => true
  | _ => false

def cleaned (left : Leftover) : RuntimePhase → RuntimePhase
  | .prepared daemon => .over daemon left
  | runtime => runtime

end RuntimePhase

/-- `clients` counts the HTTP clients. `misused` is set by what no run may do: to prepare the
runtime when that has been tried before, for a test that is not live or in a process with threads,
which a daemon would lose; to clean it up twice or while there are threads; to open a client or to
empty the metrics file without it; to close a client that is not there. -/
structure CliProcess (D : Type) where
  run : RunProcess D
  runtime : RuntimePhase
  clients : ℕ
  misused : Bool

variable {D F Url : Type} (ignored : D)

namespace CliProcess

/-- There is no thread beside the main one, and no callback for a test. -/
def quiet (c : CliProcess D) : Bool :=
  c.run.workers == 0 && c.run.registered.isEmpty && c.clients == 0

def apply (c : CliProcess D) : CliEffect → CliProcess D
  | .run e => { c with run := c.run.apply ignored e }
  | .prepare test daemon works left =>
    { c with
      runtime := if works then .prepared daemon else .over daemon left
      misused := c.misused || c.runtime != .unprepared || !c.quiet || !c.run.live.contains test }
  | .cleanup left =>
    { c with
      runtime := c.runtime.cleaned left
      misused := c.misused || !c.runtime.isPrepared || !c.quiet }
  | .openClient =>
    { c with clients := c.clients + 1, misused := c.misused || !c.runtime.isPrepared }
  | .closeClient => { c with clients := c.clients - 1, misused := c.misused || c.clients == 0 }
  | .createFile _ => { c with misused := c.misused || !c.runtime.isPrepared }
  | .printHelp _ | .printVersion | .printError _ => c

def Sound (c : CliProcess D) : Prop := c.misused = false ∧ c.run.misused = false

end CliProcess

def RunProcess.under (p : RunProcess D) (runtime : RuntimePhase) (clients : ℕ) : CliProcess D :=
  ⟨p, runtime, clients, false⟩

abbrev RunProcess.prepared (p : RunProcess D) (daemon : Bool) (clients : ℕ) : CliProcess D :=
  p.under (.prepared daemon) clients

/-- What the CLI runtime leaves of itself once `prepare` has been called. -/
def CliEnv.left (env : CliEnv F) : Leftover := if env.prepares then env.cleaned else env.undone

namespace Cli

open RunProcess

def clients (app : AppOptions Url) : ℕ := if app.pushUrl.isSome then 1 else 0

def withReporter (p : RunProcess D) (app : AppOptions Url) (test : ℕ) : RunProcess D :=
  if hasSink app then p.withWorker test else p.withTest test

section Measure

variable {ignored} {p : RunProcess D} (daemon : Bool) (P : Platform Url) (env : CliEnv F)
  (app : AppOptions Url)

theorem leaves_under {α : Type} {x : Run α} {ok : α → RunProcess D} {failed : RunProcess D}
    (runtime : RuntimePhase) (n : ℕ) (hx : Leaves (RunProcess.apply ignored) p x ok failed) :
    Leaves (CliProcess.apply ignored) (p.under runtime n) (lift .run x)
      (fun a => (ok a).under runtime n) (failed.under runtime n) :=
  leaves_lift (fun r : RunProcess D => r.under runtime n) (fun _ _ => rfl) hx

theorem leaves_openGateway :
    Leaves (CliProcess.apply ignored) (p.prepared daemon 0) (openGateway P env app)
      (fun _ => p.prepared daemon (clients app)) (p.prepared daemon 0) := by
  rw [openGateway, clients]
  cases app.pushUrl with
  | none => exact triple_pure _ fun _ => id
  | some pushUrl =>
    refine leaves_bind (leaves_ofExcept _) fun _ _ => ?_
    refine leaves_bind (leaves_ofExcept _) fun _ _ => ?_
    exact leaves_emit _

theorem leaves_openFile (n : ℕ) :
    Leaves (CliProcess.apply ignored) (p.prepared daemon n) (openFile env app)
      (fun _ => p.prepared daemon n) (p.prepared daemon n) := by
  rw [openFile]
  cases app.metricsFile with
  | none => exact triple_pure _ fun _ => id
  | some path =>
    refine leaves_bind (leaves_ofExcept _) fun _ _ => ?_
    refine leaves_bind (leaves_ofExcept _) fun _ _ => ?_
    exact leaves_emit _

theorem leaves_attachReporter (hclean : p.Clean) (test n : ℕ) :
    Leaves (CliProcess.apply ignored) ((p.withTest test).prepared daemon n)
      (attachReporter env app test) (fun _ => (withReporter p app test).prepared daemon n)
      ((p.withTest test).prepared daemon n) := by
  rw [attachReporter, withReporter]
  by_cases hsink : hasSink app = true
  · rw [if_pos hsink, if_pos hsink]
    exact leaves_under _ n (leaves_attachSinks env.toRunEnv hclean test _)
  · rw [if_neg hsink, if_neg hsink]
    exact triple_pure _ fun _ => id

theorem foldl_dropClient :
    (dropClient app).foldl (CliProcess.apply ignored) (p.prepared daemon (clients app)) =
      p.prepared daemon 0 := by
  rw [dropClient, clients]
  split <;> rfl

theorem foldl_stopReporter (hclean : p.Clean) (test : ℕ) :
    (stopReporter app test).foldl (CliProcess.apply ignored)
      ((withReporter p app test).prepared daemon (clients app)) =
      (p.withTest test).prepared daemon 0 := by
  rw [stopReporter, withReporter]
  by_cases hsink : hasSink app = true
  · rw [if_pos hsink, if_pos hsink, List.foldl_append, List.foldl_append]
    have hunregister : [CliEffect.run (.unregister test)].foldl (CliProcess.apply ignored)
        ((p.withWorker test).prepared daemon (clients app)) =
        ((p.withWorker test).apply ignored (.unregister test)).prepared daemon (clients app) := rfl
    rw [hunregister, foldl_dropClient]
    exact congrArg (RunProcess.prepared · daemon 0)
      (joinWorker_withWorker ignored hclean test)
  · have hurl : app.pushUrl.isSome = false := by
      rw [hasSink, Bool.or_eq_true, not_or, Bool.not_eq_true] at hsink
      exact hsink.1
    rw [if_neg hsink, if_neg hsink, clients, hurl]
    rfl

theorem leaves_finishReporter (hclean : p.Clean) (test : ℕ) :
    Leaves (CliProcess.apply ignored) ((withReporter p app test).prepared daemon (clients app))
      (finishReporter env app test) (fun _ => (p.withTest test).prepared daemon 0)
      ((p.withTest test).prepared daemon 0) := by
  refine leaves_bind (leaves_emits _) fun _ _ => ?_
  rw [foldl_stopReporter daemon app hclean]
  split
  · cases env.sinks with
    | none => exact leaves_fail _ _
    | some result => exact leaves_ofExcept result
  · exact triple_pure _ fun _ => id

theorem withReporter_same (test : ℕ) : (withReporter p app test).sigpipe = p.sigpipe ∧
    (withReporter p app test).saved = p.saved ∧ test ∈ (withReporter p app test).live := by
  rw [withReporter]
  split <;> exact ⟨rfl, rfl, List.mem_singleton.mpr rfl⟩

/-- The threads are gone behind it, whether the test has run or not. -/
theorem leaves_measure (hclean : p.Clean) (hsigpipe : p.sigpipe = ignored)
    (hsaved : p.saved .test = none) (test : ℕ) :
    Leaves (CliProcess.apply ignored) ((p.withTest test).prepared daemon 0)
      (measure P env app test) (fun measured => (p.withTest measured.test).prepared daemon 0)
      ((p.withTest test).prepared daemon 0) := by
  refine leaves_bind (leaves_openGateway daemon P env app) fun _ _ => ?_
  have hattach : Leaves (CliProcess.apply ignored)
      ((p.withTest test).prepared daemon (clients app)) (do
        openFile env app
        attachReporter env app test)
      (fun _ => (withReporter p app test).prepared daemon (clients app))
      ((p.withTest test).prepared daemon (clients app)) :=
    leaves_bind (leaves_openFile daemon env app _) fun _ _ =>
      leaves_attachReporter daemon env app hclean test _
  refine leaves_bind (leaves_unwinding hattach (foldl_dropClient daemon app)) fun _ _ => ?_
  obtain ⟨hsame, hsaves, hlive⟩ := @withReporter_same D Url p app test
  have hrun := leaves_under (.prepared daemon) (clients app)
    (leaves_runTest env.toRunEnv test (hsame.trans hsigpipe) (by rw [hsaves, hsaved]) hlive)
  refine leaves_bind (leaves_unwinding (leaves_attempt_same hrun)
    (foldl_stopReporter daemon app hclean test)) fun result _ => ?_
  refine leaves_bind (leaves_attempt_same (leaves_finishReporter daemon env app hclean test))
    fun reporterResult _ => ?_
  exact triple_pure _ fun _ => id

end Measure

section Guards

variable {ignored} {p : RunProcess D} (P : Platform Url) (env : CliEnv F) (app : AppOptions Url)

theorem prepare_withTest (hclean : p.Clean) (test : ℕ) (daemon works : Bool) (left : Leftover) :
    ((p.withTest test).under .unprepared 0).apply ignored (.prepare test daemon works left) =
      (p.withTest test).under (if works then .prepared daemon else .over daemon left) 0 := by
  simp [CliProcess.apply, CliProcess.quiet, under, withTest, hclean.workers, hclean.registered]

theorem cleanup_withTest (hclean : p.Clean) (test : ℕ) (daemon : Bool) (left : Leftover) :
    ((p.withTest test).prepared daemon 0).apply ignored (.cleanup left) =
      (p.withTest test).under (.over daemon left) 0 := by
  simp [CliProcess.apply, CliProcess.quiet, RuntimePhase.isPrepared, RuntimePhase.cleaned, under,
    withTest, hclean.workers, hclean.registered]

theorem leaves_prepare (hclean : p.Clean) (test : ℕ) :
    Leaves (CliProcess.apply ignored) ((p.withTest test).under .unprepared 0) (prepare env test)
      (fun _ => (p.withTest test).prepared env.daemon 0)
      ((p.withTest test).under (.over env.daemon env.left) 0) := by
  refine leaves_bind (leaves_emit _) fun _ _ => ?_
  rw [prepare_withTest hclean, CliEnv.left]
  split
  · exact triple_pure _ fun _ => id
  · exact leaves_fail _ _

theorem leaves_cleanup (hclean : p.Clean) (test : ℕ) :
    Leaves (CliProcess.apply ignored) ((p.withTest test).prepared env.daemon 0) (cleanup env)
      (fun _ => (p.withTest test).under (.over env.daemon env.cleaned) 0)
      ((p.withTest test).under (.over env.daemon env.cleaned) 0) := by
  refine leaves_bind (leaves_emit _) fun _ _ => ?_
  rw [cleanup_withTest hclean]
  split
  · exact triple_pure _ fun _ => id
  · exact leaves_fail _ _

theorem leaves_printHelp (c : CliProcess D) :
    Leaves (CliProcess.apply ignored) c (printHelp env) (fun _ => c) c :=
  leaves_bind (leaves_ofExcept _) fun _ _ =>
    leaves_bind (leaves_emit _) fun _ _ => triple_pure _ fun _ => id

theorem leaves_printVersion (c : CliProcess D) :
    Leaves (CliProcess.apply ignored) c printVersion (fun _ => c) c :=
  leaves_bind (leaves_emit _) fun _ _ => triple_pure _ fun _ => id

/-- The runtime at the end of a run whose words libiperf has parsed, or has not. -/
def runtimeBehind (env : CliEnv F) : Except Error ParseOutcome → RuntimePhase
  | .ok .parsed => .over env.daemon env.left
  | _ => .unprepared

def withTestFrom (p : RunProcess D) (env : CliEnv F) (test : ℕ) : Reached → CliProcess D
  | .stopped _ => (p.withTest test).under .unprepared 0
  | .measured measured => (p.withTest measured.test).prepared env.daemon 0

/-- The process at the end of the part under the guard of SIGPIPE: without the test, with it if
`process::exit` has been called, or with what is left for the end of the run. -/
def reachedFrom (p : RunProcess D) (env : CliEnv F) (test : ℕ) : Reached → CliProcess D
  | .stopped .returned => p.under .unprepared 0
  | reached => withTestFrom p env test reached

theorem leaves_runParsed (hclean : p.Clean) (hsigpipe : p.sigpipe = ignored)
    (hsaved : p.saved .test = none) (test : ℕ) (outcome : ParseOutcome) :
    Leaves (CliProcess.apply ignored) ((p.withTest test).under .unprepared 0)
      (runParsed P env app test outcome) (withTestFrom p env test)
      ((p.withTest test).under (runtimeBehind env (.ok outcome)) 0) := by
  cases outcome with
  | parsed =>
    refine leaves_bind (leaves_prepare env hclean test) fun _ hprepares => ?_
    have hleft : env.left = env.cleaned := by rw [CliEnv.left, if_pos (prepare_ok.mp hprepares)]
    refine leaves_bind (leaves_unwinding
      (leaves_measure env.daemon P env app hclean hsigpipe hsaved test) ?_) fun measured _ => ?_
    · rw [List.foldl_cons, List.foldl_nil, cleanup_withTest hclean, runtimeBehind, hleft]
    · exact triple_pure _ fun _ => id
  | help =>
    exact leaves_bind (leaves_printHelp env _) fun stop _ => triple_pure _ fun _ => id
  | version =>
    exact leaves_bind (leaves_printVersion _) fun stop _ => triple_pure _ fun _ => id
  | usageError => exact triple_pure _ fun _ => id

theorem freeTest_under (hclean : p.Clean) (test : ℕ) (runtime : RuntimePhase) :
    [CliEffect.run (.freeTest test)].foldl (CliProcess.apply ignored)
      ((p.withTest test).under runtime 0) = p.under runtime 0 :=
  congrArg (RunProcess.under · runtime 0) (freeTest_withTest ignored hclean test)

/-- The part of a run that needs the test: `newTest` has succeeded. -/
theorem leaves_withTest (hclean : p.Clean) (hsigpipe : p.sigpipe = ignored)
    (hsaved : p.saved .test = none) (lib : Libiperf) (quoted : String → String)
    (args : List String) (test : ℕ) :
    Leaves (CliProcess.apply ignored) ((p.withTest test).under .unprepared 0) (do
      emit (.run (.useTest test))
      let outcome ← ofExcept (parseArguments lib quoted args).1
      runParsed P env app test outcome) (withTestFrom p env test)
      ((p.withTest test).under (runtimeBehind env (parseArguments lib quoted args).1) 0) := by
  refine leaves_bind (leaves_emit _) fun _ _ => ?_
  have huse : ((p.withTest test).under .unprepared 0).apply ignored (.run (.useTest test)) =
      (p.withTest test).under .unprepared 0 :=
    congrArg (RunProcess.under · .unprepared 0) (useTest_withTest ignored hclean test)
  rw [huse]
  cases (parseArguments lib quoted args).1 with
  | error e => exact triple_fail e fun _ => id
  | ok outcome => exact leaves_runParsed P env app hclean hsigpipe hsaved test outcome

/-- The runtime at the end of a run, according to what libiperf says of the words. -/
def runtimeAtEnd (env : CliEnv F) (parsed : Except Error ParseOutcome) : RuntimePhase :=
  if env.address.isSome && env.defaults then runtimeBehind env parsed else .unprepared

theorem leaves_runGuarded (hclean : p.Clean) (hsigpipe : p.sigpipe = ignored)
    (hsaved : p.saved .test = none) (lib : Libiperf) (quoted : String → String)
    (args : List String) :
    Leaves (CliProcess.apply ignored) (p.under .unprepared 0)
      (runGuarded P env app lib quoted args) (reachedFrom p env (env.address.getD 0))
      (p.under (runtimeAtEnd env (parseArguments lib quoted args).1) 0) := by
  have hnew := leaves_mapError (fun e : Error =>
      { e with message := "failed to create iperf test: " ++ e.message })
    (leaves_under .unprepared 0 (@leaves_newTest D F ignored p env.toRunEnv hclean))
  by_cases hok : (env.address.isSome && env.defaults) = true
  · rw [runtimeAtEnd, if_pos hok]
    obtain ⟨haddress, hdefaults⟩ := Bool.and_eq_true_iff.mp hok
    obtain ⟨address, haddress⟩ := Option.isSome_iff_exists.mp haddress
    refine leaves_bind (hnew.of_ok (ending_mapError_ok.mpr
      ((newTest_ok env.toRunEnv).mpr ⟨haddress, hdefaults⟩))) fun test htest => ?_
    have htest := ((newTest_ok env.toRunEnv).mp (ending_mapError_ok.mp htest)).1
    rw [htest]
    refine leaves_guarding (leaves_withTest P env app hclean hsigpipe hsaved lib quoted args test)
      (fun reached hkept => ?_) (fun reached hkept => ?_) (freeTest_under hclean test _)
    · cases reached with
      | measured measured => rfl
      | stopped stop =>
        cases stop with
        | returned => cases hkept
        | exited => rfl
    · cases reached with
      | measured measured => cases hkept
      | stopped stop =>
        cases stop with
        | returned => exact (freeTest_under hclean test .unprepared).symm
        | exited => cases hkept
  · rw [runtimeAtEnd, if_neg hok]
    refine leaves_bind hnew fun test htest => ?_
    obtain ⟨haddress, hdefaults⟩ := (newTest_ok env.toRunEnv).mp (ending_mapError_ok.mp htest)
    rw [haddress, hdefaults] at hok
    exact absurd rfl hok

end Guards

section Run

variable {ignored} {p : RunProcess D} (B : NativeBoundary) (P : Platform Url) (vars : Env)
  (lib : Libiperf) (quoted : String → String) (env : CliEnv F) (app : AppOptions Url)
  (raw : List (Option String))

def runtimeReached (env : CliEnv F) : Reached → RuntimePhase
  | .stopped _ => .unprepared
  | .measured _ => .over env.daemon env.cleaned

theorem runtimeAtEnd_reached {reached : Reached} {args : List String}
    (h : (runGuarded P env app lib quoted args).ending = .ok reached) :
    runtimeAtEnd env (parseArguments lib quoted args).1 = runtimeReached env reached := by
  obtain ⟨test, outcome, haddress, hdefaults, houtcome, hparsed⟩ := runGuarded_ok.mp h
  rw [houtcome, runtimeAtEnd, haddress, hdefaults, if_pos (by rfl)]
  cases outcome with
  | parsed =>
    cases reached with
    | stopped stop => exact absurd hparsed runParsed_stopped
    | measured measured =>
      rw [runtimeBehind, CliEnv.left, if_pos (runParsed_measured.mp hparsed).1]
      rfl
  | help | version | usageError =>
    cases reached with
    | stopped stop => rfl
    | measured measured => simp [runParsed, ending_bind_ok, ending_pure_ok] at hparsed

/-- The process at the end of a run that has not failed. -/
def stoppedFrom (ignored : D) (p : RunProcess D) (env : CliEnv F) (runtime : RuntimePhase) :
    Stop → CliProcess D
  | .returned => (p.restored ignored (env.restores .command)).under runtime 0
  | .exited =>
    ((p.apply ignored (.ignoreSigpipe .command)).withTest (env.address.getD 0)).under .unprepared 0

/-- The process behind the guard of SIGPIPE, which only a measurement still has. -/
def unguardedFrom (ignored : D) (p : RunProcess D) (env : CliEnv F) : Reached → CliProcess D
  | .stopped stop => stoppedFrom ignored p env .unprepared stop
  | .measured measured =>
    ((p.apply ignored (.ignoreSigpipe .command)).withTest measured.test).prepared env.daemon 0

theorem leaves_finish (hidle : p.Idle) (measured : CliMeasured) :
    Leaves (CliProcess.apply ignored)
      (((p.apply ignored (.ignoreSigpipe .command)).withTest measured.test).prepared env.daemon 0)
      (finish env measured)
      (fun _ => (p.restored ignored (env.restores .command)).under
        (.over env.daemon env.cleaned) 0)
      ((p.restored ignored (env.restores .command)).under (.over env.daemon env.cleaned) 0) := by
  obtain ⟨hrestore, -, htest⟩ := @restore_command D ignored p
    (hidle.saved .command) (env.restores .command)
  have hclean : (p.apply ignored (.ignoreSigpipe .command)).Clean :=
    ⟨hidle.live, hidle.registered, hidle.workers,
      by simp [RunProcess.apply, hidle.misused, hidle.saved]⟩
  have hrestored : (p.restored ignored (env.restores .command)).Clean :=
    ⟨hidle.live, hidle.registered, hidle.workers, hidle.misused⟩
  refine leaves_bind (leaves_unwinding (leaves_cleanup env hclean measured.test) ?_) fun _ _ => ?_
  · have hfree := @freeTest_under D ignored _ hclean measured.test
      (.over env.daemon env.cleaned)
    rw [List.foldl_cons, List.foldl_nil] at hfree
    rw [List.foldl_cons, hfree]
    exact congrArg (RunProcess.under · (.over env.daemon env.cleaned) 0) hrestore
  · refine leaves_scope ?_ (freeTest_under hrestored measured.test _)
    refine leaves_bind (leaves_under _ 0
      (leaves_restoreSigpipe env.toRunEnv .command (htest measured.test))) fun _ _ => ?_
    exact leaves_bind (leaves_ofExcept _) fun _ _ => leaves_ofExcept _

theorem leaves_runAccepted (hidle : p.Idle) (args : List String) :
    Leaves (CliProcess.apply ignored) (p.under .unprepared 0)
      (runAccepted P env app lib quoted args)
      (stoppedFrom ignored p env (runtimeAtEnd env (parseArguments lib quoted args).1))
      (if env.ignores .command then (p.restored ignored (env.restores .command)).under
          (runtimeAtEnd env (parseArguments lib quoted args).1) 0
        else p.under .unprepared 0) := by
  have hclean : (p.apply ignored (.ignoreSigpipe .command)).Clean :=
    ⟨hidle.live, hidle.registered, hidle.workers,
      by simp [RunProcess.apply, hidle.misused, hidle.saved]⟩
  have hother : (p.apply ignored (.ignoreSigpipe .command)).saved .test = none := by
    simp [RunProcess.apply, hidle.saved]
  obtain ⟨hrestore, -, -⟩ := @restore_command D ignored p
    (hidle.saved .command) (env.restores .command)
  have hdrop : ∀ runtime, [CliEffect.run (.restoreSigpipe .command (env.restores .command))].foldl
      (CliProcess.apply ignored) ((p.apply ignored (.ignoreSigpipe .command)).under runtime 0) =
      (p.restored ignored (env.restores .command)).under runtime 0 :=
    fun runtime => congrArg (RunProcess.under · runtime 0) hrestore
  by_cases hignores : env.ignores .command = true
  · rw [if_pos hignores]
    have hinstall : Leaves (CliProcess.apply ignored) (p.under .unprepared 0)
        (lift CliEffect.run (installSigpipe env.toRunEnv .command))
        (fun _ => (p.apply ignored (.ignoreSigpipe .command)).under .unprepared 0)
        ((p.restored ignored (env.restores .command)).under
          (runtimeAtEnd env (parseArguments lib quoted args).1) 0) := by
      rw [installSigpipe, if_pos hignores]
      exact leaves_emit _
    refine leaves_bind hinstall fun _ _ => ?_
    have hguarded := leaves_runGuarded P env app hclean rfl hother lib quoted args
    have hbody : Leaves (CliProcess.apply ignored)
        ((p.apply ignored (.ignoreSigpipe .command)).under .unprepared 0)
        (guarding Reached.kept [.run (.restoreSigpipe .command (env.restores .command))]
          (runGuarded P env app lib quoted args)) (unguardedFrom ignored p env)
        ((p.restored ignored (env.restores .command)).under
          (runtimeAtEnd env (parseArguments lib quoted args).1) 0) := by
      refine leaves_guarding hguarded (fun reached hkept => ?_) (fun reached hkept => ?_) (hdrop _)
      · cases reached with
        | measured measured => rfl
        | stopped stop =>
          cases stop with
          | returned => cases hkept
          | exited => rfl
      · cases reached with
        | measured measured => cases hkept
        | stopped stop =>
          cases stop with
          | returned => exact (hdrop .unprepared).symm
          | exited => cases hkept
    refine leaves_bind hbody fun reached hreached => ?_
    rw [runtimeAtEnd_reached P lib quoted env app hreached]
    cases reached with
    | stopped stop => exact triple_pure _ fun _ => id
    | measured measured =>
      refine leaves_bind (leaves_finish env hidle measured) fun _ _ => ?_
      exact triple_pure _ fun _ => id
  · rw [if_neg hignores]
    refine leaves_bind (leaves_under _ 0
      (leaves_installSigpipe env.toRunEnv .command)) fun _ hok => ?_
    rw [ending_lift, installSigpipe_ok] at hok
    exact absurd hok hignores

/-- Only what a native call has failed to undo is left, of the runtime or of SIGPIPE. -/
def AsBefore (ignored : D) (p : RunProcess D) (env : CliEnv F) (c : CliProcess D) : Prop :=
  (c.runtime = .unprepared ∨ c.runtime = .over env.daemon env.left) ∧
    (c = p.under c.runtime 0 ∨ env.restores .command = false ∧
      c = { p with sigpipe := ignored : RunProcess D }.under c.runtime 0)

theorem runtimeAtEnd_cases (parsed : Except Error ParseOutcome) :
    runtimeAtEnd env parsed = .unprepared ∨
      runtimeAtEnd env parsed = .over env.daemon env.left := by
  rw [runtimeAtEnd]
  split
  · cases parsed with
    | error e => exact .inl rfl
    | ok outcome => cases outcome <;> first | exact .inl rfl | exact .inr rfl
  · exact .inl rfl

theorem asBefore_unprepared : AsBefore ignored p env (p.under .unprepared 0) :=
  ⟨.inl rfl, .inl rfl⟩

theorem asBefore_restored (parsed : Except Error ParseOutcome) :
    AsBefore ignored p env
      ((p.restored ignored (env.restores .command)).under (runtimeAtEnd env parsed) 0) := by
  refine ⟨runtimeAtEnd_cases env parsed, ?_⟩
  cases hrestores : env.restores .command with
  | true => exact .inl rfl
  | false => exact .inr ⟨rfl, rfl⟩

/-- A run that has not failed has cleaned the runtime up. -/
theorem runtimeAtEnd_returned {args : List String}
    (h : (runAccepted P env app lib quoted args).ending = .ok .returned) {daemon : Bool}
    {left : Leftover}
    (hruntime : runtimeAtEnd env (parseArguments lib quoted args).1 = .over daemon left) :
    left = .none := by
  obtain ⟨-, hreached | ⟨-, measured, hreached, hfinish⟩⟩ := runAccepted_ok.mp h
  · rw [runtimeAtEnd_reached P lib quoted env app hreached] at hruntime
    cases hruntime
  · rw [runtimeAtEnd_reached P lib quoted env app hreached] at hruntime
    cases hruntime
    exact (finish_ok.mp hfinish).1

theorem run_state (hidle : p.Idle) :
    let run := run B P vars lib quoted env raw
    let c := run.trace.foldl (CliProcess.apply ignored) (p.under .unprepared 0)
    (run.ending ≠ .ok .exited → AsBefore ignored p env c) ∧
      (run.ending = .ok .returned → ∀ daemon left, c.runtime = .over daemon left → left = .none) ∧
      (run.ending = .ok .exited → c = p.under .unprepared 0 ∨ ∃ test,
        c = ((p.apply ignored (.ignoreSigpipe .command)).withTest test).under .unprepared 0) := by
  simp only [run]
  cases accept B P vars raw with
  | error text => exact ⟨fun h => absurd rfl h, (fun h => by cases h), fun _ => .inl rfl⟩
  | ok accepted =>
    obtain ⟨app, args⟩ := accepted
    have hprinted : ∀ x : CliRun Stop, Leaves (CliProcess.apply ignored) (p.under .unprepared 0) x
        (fun _ => p.under .unprepared 0) (p.under .unprepared 0) →
        let c := x.trace.foldl (CliProcess.apply ignored) (p.under .unprepared 0)
        (x.ending ≠ .ok .exited → AsBefore ignored p env c) ∧
          (x.ending = .ok .returned → ∀ daemon left, c.runtime = .over daemon left →
            left = .none) ∧
          (x.ending = .ok .exited → c = p.under .unprepared 0 ∨ ∃ test,
            c = ((p.apply ignored (.ignoreSigpipe .command)).withTest test).under
              .unprepared 0) := by
      intro x hx c
      have hh := hx _ rfl
      have hc : c = p.under .unprepared 0 := by
        cases hending : x.ending <;> rw [hending] at hh <;> exact hh
      rw [hc]
      exact ⟨fun _ => asBefore_unprepared env, (fun _ daemon left h => by cases h),
        fun _ => .inl rfl⟩
    by_cases hhelp : app.showHelp = true
    · simp only [hhelp, if_true]
      exact hprinted _ (leaves_printHelp env _)
    · by_cases hversion : app.showVersion = true
      · simp only [hhelp, hversion, if_true]
        exact hprinted _ (leaves_printVersion _)
      · simp only [hhelp, hversion, Bool.false_eq_true, if_false]
        have hstate := @leaves_runAccepted D F Url ignored p P lib quoted env app hidle args _ rfl
        have hfailed : AsBefore ignored p env (if env.ignores .command then
            (p.restored ignored (env.restores .command)).under
              (runtimeAtEnd env (parseArguments lib quoted args).1) 0
            else p.under .unprepared 0) := by
          split
          · exact asBefore_restored env _
          · exact asBefore_unprepared env
        cases hending : (runAccepted P env app lib quoted args).ending with
        | error e =>
          rw [hending] at hstate
          exact ⟨fun _ => by rwa [← hstate] at hfailed, (fun h => by cases h),
            fun h => by cases h⟩
        | panicked =>
          rw [hending] at hstate
          exact ⟨fun _ => by rwa [← hstate] at hfailed, (fun h => by cases h),
            fun h => by cases h⟩
        | ok stop =>
          rw [hending] at hstate
          cases stop with
          | returned =>
            have hdone : (runAccepted P env app lib quoted args).trace.foldl
                (CliProcess.apply ignored) (p.under .unprepared 0) =
                (p.restored ignored (env.restores .command)).under
                  (runtimeAtEnd env (parseArguments lib quoted args).1) 0 := hstate
            rw [hdone]
            exact ⟨fun _ => asBefore_restored env _,
              fun _ daemon left => runtimeAtEnd_returned P lib quoted env app hending,
              fun h => by cases h⟩
          | exited =>
            exact ⟨fun h => absurd rfl h, (fun h => by cases h), fun _ => .inr ⟨_, hstate⟩⟩

theorem CliProcess.sound_of_foldl {c : CliProcess D} (effects : List CliEffect)
    (h : (effects.foldl (CliProcess.apply ignored) c).Sound) : c.Sound := by
  induction effects generalizing c with
  | nil => exact h
  | cons e effects ih =>
    obtain ⟨hmisused, hrun⟩ := ih h
    cases e with
    | run e =>
      refine ⟨hmisused, ?_⟩
      by_contra hsome
      rw [Bool.not_eq_false] at hsome
      have hstill := @misused_foldl D ignored c.run hsome [e]
      exact Bool.false_ne_true (hrun.symm.trans hstill)
    | prepare test works | cleanup works | openClient | closeClient | createFile path =>
      simp only [CliProcess.apply, Bool.or_eq_false_iff] at hmisused
      exact ⟨by tauto, hrun⟩
    | printHelp usage | printVersion | printError text => exact ⟨hmisused, hrun⟩

/-- However a run of the CLI ends, with an error or a panic at whatever point, no step of it was a
misuse, and no thread, callback, client or test is left. The runtime is over if it was prepared,
and nothing of it is left by a run that succeeds; by another, what the failing `prepare` or
`cleanup` has not undone. Only `process::exit`, for the exit status 1, may leave the test and the
guard of SIGPIPE behind, before there is a runtime. -/
theorem cli_state (hidle : p.Idle) :
    let process := main B P vars lib quoted env raw
    let c := process.1.foldl (CliProcess.apply ignored) (p.under .unprepared 0)
    (∀ done rest, process.1 = done ++ rest →
      (done.foldl (CliProcess.apply ignored) (p.under .unprepared 0)).Sound) ∧
    (process.2 ≠ 1 → AsBefore ignored p env c) ∧
    (process.2 = 0 → ∀ daemon left, c.runtime = .over daemon left → left = .none) ∧
    (process.2 = 1 → c = p.under .unprepared 0 ∨ ∃ test,
      c = ((p.apply ignored (.ignoreSigpipe .command)).withTest test).under .unprepared 0) := by
  obtain ⟨hothers, hreturned, hexited⟩ :=
    @run_state D F Url ignored p B P vars lib quoted env raw hidle
  have hreport : (main B P vars lib quoted env raw).1.foldl (CliProcess.apply ignored)
      (p.under .unprepared 0) =
      (run B P vars lib quoted env raw).trace.foldl (CliProcess.apply ignored)
        (p.under .unprepared 0) := by
    rw [main, List.foldl_append]
    cases (run B P vars lib quoted env raw).ending <;> rfl
  have hcode : (main B P vars lib quoted env raw).2 =
      exitCode (run B P vars lib quoted env raw).ending := rfl
  have hclean : ((p.apply ignored (.ignoreSigpipe .command)).misused) = false := by
    simp [RunProcess.apply, hidle.misused, hidle.saved]
  simp only [hreport, hcode]
  refine ⟨fun done rest htrace => ?_, fun hother => hothers (mt exitCode_one.mpr hother),
    fun hzero => hreturned (exitCode_zero.mp hzero), fun hone => hexited (exitCode_one.mp hone)⟩
  refine @CliProcess.sound_of_foldl D ignored _ rest ?_
  rw [← List.foldl_append, ← htrace, hreport]
  by_cases hone : (run B P vars lib quoted env raw).ending = .ok .exited
  · rcases hexited hone with hstate | ⟨test, hstate⟩
    · rw [hstate]
      exact ⟨rfl, hidle.misused⟩
    · rw [hstate]
      exact ⟨rfl, hclean⟩
  · obtain ⟨-, hstate | ⟨-, hstate⟩⟩ := hothers hone
    · rw [hstate]
      exact ⟨rfl, hidle.misused⟩
    · rw [hstate]
      exact ⟨rfl, hidle.misused⟩

end Run

section Samples

def sampleCliEnv : CliEnv Unit :=
  { sampleRunEnv 7 with
    usage := .ok ""
    daemon := false
    prepares := true
    undone := .none
    cleaned := .none
    created := .ok () }

/-- A test that fails while there is a worker and a client, and a pidfile that cannot be removed
behind it. -/
theorem cli_state_failed :
    let p : RunProcess Bool := ⟨false, fun _ => none, [], [], 0, 0, false, false⟩
    let env := { sampleCliEnv with
      served := some (.error ⟨.libiperf, "unreachable"⟩)
      cleaned := ⟨false, true⟩ }
    let process := main clientBoundary httpPlatform (fun _ => .ok none)
      sampleLibiperf id env
      [some "iperf3-rs", some "--push.url", some "localhost:9091", some "-c", some "host"]
    process.2 = 2 ∧ AsBefore true p env
      (process.1.foldl (CliProcess.apply true) (p.under .unprepared 0)) := by
  intro p env process
  have hcode : process.2 = 2 := rfl
  exact ⟨hcode, (cli_state _ _ _ _ _ env _ ⟨fun _ => rfl, rfl, rfl, rfl, rfl⟩).2.1
    (by rw [hcode]; decide)⟩

end Samples

end Cli

end Iperf3Rs
