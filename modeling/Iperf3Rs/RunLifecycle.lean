import Iperf3Rs.CriticalSection
import Iperf3Rs.RunCommand

/-! What the runs of a process share, and what is left of it behind a run: any number of runs from
any number of threads leave the signal disposition, the callback registry and the native tests as
they have found them. -/

namespace Iperf3Rs

open Scoped

/-- `saved` is what the guards are to restore, and `misused` is set by what no run may do: to create
a test beside another one or under a callback that is still registered, to use or free a test that
is not live, to restore what is not saved, or to join a worker that is not there. -/
structure RunProcess (D : Type) where
  sigpipe : D
  saved : Guard → Option D
  live : List ℕ
  registered : List ℕ
  workers : ℕ
  detached : ℕ
  poisoned : Bool
  misused : Bool

variable {D F : Type} (ignored : D)

namespace RunProcess

def apply (p : RunProcess D) : RunEffect → RunProcess D
  | .ignoreSigpipe guard =>
    { p with
      sigpipe := ignored
      saved := Function.update p.saved guard (some p.sigpipe)
      misused := p.misused || (p.saved guard).isSome }
  | .restoreSigpipe guard works =>
    match p.saved guard with
    | none => { p with misused := true }
    | some previous =>
      { p with
        sigpipe := if works then previous else p.sigpipe
        saved := Function.update p.saved guard none }
  | .newTest test =>
    { p with
      live := test :: p.live
      misused := p.misused || !p.live.isEmpty || p.registered.contains test }
  | .useTest test => { p with misused := p.misused || !p.live.contains test }
  | .freeTest test =>
    { p with live := p.live.erase test, misused := p.misused || !p.live.contains test }
  | .register test =>
    { p with
      registered := test :: p.registered
      misused := p.misused || !p.live.contains test || p.registered.contains test }
  | .unregister test => { p with registered := p.registered.erase test }
  | .spawnWorker => { p with workers := p.workers + 1 }
  | .joinWorker => { p with workers := p.workers - 1, misused := p.misused || p.workers == 0 }
  | .detachWorker =>
    { p with
      workers := p.workers - 1
      detached := p.detached + 1
      misused := p.misused || p.workers == 0 }
  | .ready _ => p
  | .poison => { p with poisoned := true }

/-- Nothing of a run is left. -/
structure Idle (p : RunProcess D) : Prop where
  saved : ∀ guard, p.saved guard = none
  live : p.live = []
  registered : p.registered = []
  workers : p.workers = 0
  misused : p.misused = false

/-- No test, callback or worker is there; a guard may be. -/
structure Clean (p : RunProcess D) : Prop where
  live : p.live = []
  registered : p.registered = []
  workers : p.workers = 0
  misused : p.misused = false

def withTest (p : RunProcess D) (test : ℕ) : RunProcess D := { p with live := [test] }

def withCallback (p : RunProcess D) (test : ℕ) : RunProcess D :=
  { p with live := [test], registered := [test] }

def withWorker (p : RunProcess D) (test : ℕ) : RunProcess D :=
  { p with live := [test], registered := [test], workers := 1 }

/-- What a setup has brought about. -/
def withSetup (p : RunProcess D) (setup : RunSetup) : RunProcess D :=
  if setup.reporting = .none then p.withTest setup.test else p.withWorker setup.test

end RunProcess

open RunProcess

section States

variable {p : RunProcess D}

theorem newTest_clean (hclean : p.Clean) (test : ℕ) :
    p.apply ignored (.newTest test) = p.withTest test := by
  simp [RunProcess.apply, withTest, hclean.live, hclean.registered, hclean.misused]

theorem useTest_withTest (hclean : p.Clean) (test : ℕ) :
    (p.withTest test).apply ignored (.useTest test) = p.withTest test := by
  simp [RunProcess.apply, withTest, hclean.misused]

theorem freeTest_withTest (hclean : p.Clean) (test : ℕ) :
    (p.withTest test).apply ignored (.freeTest test) = p := by
  simp [RunProcess.apply, withTest, ← hclean.live]

theorem foldl_free (hclean : p.Clean) (test : ℕ) :
    [RunEffect.freeTest test].foldl (RunProcess.apply ignored) (p.withTest test) = p :=
  freeTest_withTest ignored hclean test

theorem register_withTest (hclean : p.Clean) (test : ℕ) :
    (p.withTest test).apply ignored (.register test) = p.withCallback test := by
  simp [RunProcess.apply, withTest, withCallback, hclean.registered, hclean.misused]

theorem useTest_withCallback (hclean : p.Clean) (test : ℕ) :
    (p.withCallback test).apply ignored (.useTest test) = p.withCallback test := by
  simp [RunProcess.apply, withCallback, hclean.misused]

theorem unregister_withCallback (hclean : p.Clean) (test : ℕ) :
    (p.withCallback test).apply ignored (.unregister test) = p.withTest test := by
  simp [RunProcess.apply, withTest, withCallback, ← hclean.registered]

theorem spawnWorker_withCallback (hclean : p.Clean) (test : ℕ) :
    (p.withCallback test).apply ignored .spawnWorker = p.withWorker test := by
  simp [RunProcess.apply, withCallback, withWorker, hclean.workers]

/-- The two steps of a regular end. -/
theorem joinWorker_withWorker (hclean : p.Clean) (test : ℕ) :
    ((p.withWorker test).apply ignored (.unregister test)).apply ignored .joinWorker =
      p.withTest test := by
  simp [RunProcess.apply, withTest, withWorker, ← hclean.registered, hclean.workers]

end States

section Setup

variable {ignored} {p q failed : RunProcess D} (env : RunEnv F)

theorem leaves_newTest (hclean : p.Clean) :
    Leaves (apply ignored) p (newTest env) (fun test => p.withTest test) p := by
  rw [newTest]
  cases env.address with
  | none => exact leaves_fail _ _
  | some test =>
    refine leaves_bind (leaves_emit _) fun _ _ => ?_
    rw [newTest_clean ignored hclean]
    refine leaves_unwinding ?_ (foldl_free ignored hclean test)
    refine leaves_bind (leaves_emit _) fun _ _ => ?_
    rw [useTest_withTest ignored hclean]
    split
    · exact leaves_pure test
    · exact leaves_fail _ _

theorem leaves_attachCallback (hclean : p.Clean) (test : ℕ) :
    Leaves (apply ignored) (p.withTest test) (attachCallback env test)
      (fun _ => p.withCallback test) (p.withTest test) := by
  rw [attachCallback]
  split
  · refine triple_emits _ fun s hs => ?_
    rw [hs, List.foldl_cons, List.foldl_cons, register_withTest ignored hclean,
      useTest_withCallback ignored hclean]
    rfl
  · exact leaves_fail _ _

theorem leaves_spawnThread (hclean : p.Clean) (test : ℕ) :
    Leaves (apply ignored) (p.withCallback test) (spawnThread env) (fun _ => p.withWorker test)
      (p.withCallback test) := by
  rw [spawnThread]
  split
  · rw [← spawnWorker_withCallback ignored hclean]
    exact leaves_emit _
  · exact triple_panic fun _ => id

theorem leaves_metricEventStream (hclean : p.Clean) (test : ℕ) (mode : MetricsMode) :
    Leaves (apply ignored) (p.withCallback test) (metricEventStream env mode)
      (fun _ => p.withWorker test) (p.withCallback test) :=
  leaves_bind (leaves_ofExcept _) fun _ _ => leaves_spawnThread env hclean test

theorem leaves_attachSinks (hclean : p.Clean) (test : ℕ) (pushInterval : Option Duration) :
    Leaves (apply ignored) (p.withTest test) (attachSinks env test pushInterval)
      (fun _ => p.withWorker test) (p.withTest test) := by
  have hattach : Leaves (apply ignored) (p.withTest test) (do
      attachCallback env test
      unwinding [.unregister test] (spawnThread env)) (fun _ => p.withWorker test)
      (p.withTest test) :=
    leaves_bind (leaves_attachCallback env hclean test) fun _ _ =>
      leaves_unwinding (leaves_spawnThread env hclean test) (unregister_withCallback ignored hclean test)
  unfold attachSinks
  cases pushInterval with
  | some interval => exact leaves_bind (leaves_ofExcept _) fun _ _ => hattach
  | none => exact hattach

/-- A setup that fails leaves nothing behind. -/
theorem leaves_setupRun (hclean : p.Clean) (lib : Libiperf) (quoted : String → String)
    (request : RunRequest) :
    Leaves (apply ignored) p (setupRun env lib quoted request)
      (fun setup => p.withSetup setup) p := by
  refine leaves_bind (leaves_ofExcept _) fun _ _ => ?_
  refine leaves_bind (leaves_ofExcept _) fun _ _ => ?_
  refine leaves_bind (leaves_newTest env hclean) fun test _ => ?_
  refine leaves_unwinding ?_ (foldl_free ignored hclean test)
  refine leaves_bind (leaves_emit _) fun _ _ => ?_
  rw [useTest_withTest ignored hclean]
  refine leaves_bind (leaves_ofExcept _) fun _ _ => ?_
  refine leaves_bind (leaves_ofExcept _) fun _ _ => ?_
  cases request.metricsMode.callbackQueue with
  | some queue =>
    refine leaves_bind (leaves_attachCallback env hclean test) fun _ _ => ?_
    refine leaves_bind (leaves_unwinding (leaves_metricEventStream env hclean test _)
      (unregister_withCallback ignored hclean test)) fun _ _ => ?_
    exact triple_pure _ fun _ => id
  | none =>
    cases request.pushgateway with
    | some mode =>
      refine leaves_bind (leaves_ofExcept _) fun _ _ => ?_
      refine leaves_bind (leaves_attachSinks env hclean test _) fun _ _ => ?_
      exact triple_pure _ fun _ => id
    | none => exact triple_pure _ fun _ => id

end Setup

section Command

variable {ignored} {p q failed : RunProcess D} (env : RunEnv F)

theorem leaves_installSigpipe (guard : Guard) :
    Leaves (apply ignored) p (installSigpipe env guard)
      (fun _ => p.apply ignored (.ignoreSigpipe guard)) p := by
  rw [installSigpipe]
  split
  · exact leaves_emit _
  · exact leaves_fail _ _

theorem leaves_restoreSigpipe (guard : Guard)
    (hq : p.apply ignored (.restoreSigpipe guard (env.restores guard)) = q) :
    Leaves (apply ignored) p (restoreSigpipe env guard) (fun _ => q) q := by
  refine leaves_bind (leaves_emit _) fun _ _ => ?_
  rw [hq]
  split
  · exact triple_pure _ fun _ => id
  · exact leaves_fail _ _

theorem useTest_live {test : ℕ} (hlive : test ∈ q.live) :
    q.apply ignored (.useTest test) = q := by
  simp [RunProcess.apply, hlive]

/-- The guard of `IperfTest::run` comes to nothing under that of `run_command`. -/
theorem restore_ignored (hsigpipe : q.sigpipe = ignored) (hsaved : q.saved .test = none)
    (works : Bool) :
    (q.apply ignored (.ignoreSigpipe .test)).apply ignored (.restoreSigpipe .test works) = q := by
  have hupdate : Function.update q.saved .test none = q.saved := by
    rw [← hsaved, Function.update_eq_self]
  simp [RunProcess.apply, hsaved, hsigpipe, hupdate]
  rw [← hsigpipe]

theorem leaves_runRole (test : ℕ) (hlive : test ∈ q.live) :
    Leaves (apply ignored) q (runRole env test) (fun _ => q) q := by
  have huse := @useTest_live D ignored q test hlive
  unfold runRole
  cases env.role with
  | client | server =>
    refine leaves_bind (leaves_emit _) fun _ _ => ?_
    rw [huse]
    exact leaves_ofEnd _
  | unknown role => exact leaves_fail _ _

theorem leaves_runTest (test : ℕ) (hsigpipe : q.sigpipe = ignored) (hsaved : q.saved .test = none)
    (hlive : test ∈ q.live) : Leaves (apply ignored) q (runTest env test) (fun _ => q) q := by
  have hrestore := restore_ignored hsigpipe hsaved (env.restores .test)
  refine leaves_bind (leaves_installSigpipe env .test) fun _ _ => ?_
  have hrole : Leaves (apply ignored) (q.apply ignored (.ignoreSigpipe .test)) (runRole env test)
      (fun _ => q.apply ignored (.ignoreSigpipe .test)) (q.apply ignored (.ignoreSigpipe .test)) :=
    leaves_runRole env test hlive
  refine leaves_bind (leaves_unwinding (q := q.apply ignored (.ignoreSigpipe .test))
    (leaves_attempt_same hrole) hrestore) fun result _ => ?_
  refine leaves_bind (leaves_restoreSigpipe env .test hrestore) fun _ _ => ?_
  exact leaves_ofExcept result

/-- A thread that is left to itself, its channel closed. -/
def RunProcess.detach (p : RunProcess D) : RunProcess D := { p with detached := p.detached + 1 }

/-- As `Leaves`, but a panic may have detached a worker. -/
def Falls {α : Type} (ignored : D) (p : RunProcess D) (x : Run α) (ok : α → RunProcess D)
    (failed : RunProcess D) : Prop :=
  Triple (RunProcess.apply ignored) (· = p) x fun
    | .ok a, p' => p' = ok a
    | .error _, p' => p' = failed
    | .panicked, p' => p' = failed ∨ p' = failed.detach

theorem falls_of_leaves {α : Type} {x : Run α} {ok : α → RunProcess D}
    (h : Leaves (apply ignored) p x ok failed) : Falls ignored p x ok failed := by
  refine Triple.weaken h (fun _ => id) fun ending s hs => ?_
  cases ending with
  | ok a => exact hs
  | error e => exact hs
  | panicked => exact .inl hs

theorem falls_bind {α β : Type} {x : Run α} {f : α → Run β} {mid : α → RunProcess D}
    {ok : β → RunProcess D} (hx : Falls ignored p x mid failed)
    (hf : ∀ a, x.ending = .ok a → Falls ignored (mid a) (f a) ok failed) :
    Falls ignored p (x >>= f) ok failed := by
  refine triple_bind f fun s hs => ?_
  have hh := hx s hs
  cases hending : x.ending with
  | ok a =>
    rw [hending] at hh
    exact hf a hending _ hh
  | error e =>
    rw [hending] at hh
    exact hh
  | panicked =>
    rw [hending] at hh
    exact hh

theorem falls_unwinding {α : Type} {x : Run α} {ok : α → RunProcess D} {drops : List RunEffect}
    (hx : Falls ignored p x ok q) (hdrops : drops.foldl (RunProcess.apply ignored) q = failed)
    (hdetach : drops.foldl (RunProcess.apply ignored) q.detach = failed.detach) :
    Falls ignored p (unwinding drops x) ok failed := by
  refine triple_unwinding drops (Triple.weaken hx (fun _ => id) fun ending s hs => ?_)
  cases ending with
  | ok a => exact hs
  | error e => rw [← hdrops, hs]
  | panicked =>
    rcases hs with hs | hs
    · exact .inl (by rw [← hdrops, hs])
    · exact .inr (by rw [← hdetach, hs])

theorem leaves_notifyReady (ready : Bool) (message : Except String Bool) :
    Leaves (apply ignored) p (notifyReady ready message) (fun _ => p) failed := by
  refine triple_emits _ fun s hs => ?_
  show List.foldl _ s _ = p
  rw [hs]
  cases ready <;> rfl

theorem withSetup_live (p : RunProcess D) (setup : RunSetup) :
    setup.test ∈ (p.withSetup setup).live := by
  rw [withSetup]
  split <;> simp [withTest, withWorker]

theorem withSetup_sigpipe (p : RunProcess D) (setup : RunSetup) :
    (p.withSetup setup).sigpipe = p.sigpipe ∧ (p.withSetup setup).saved = p.saved := by
  rw [withSetup]
  split <;> exact ⟨rfl, rfl⟩

/-- What a panic in the run drops: of the workers only that of the stream is detached. -/
theorem foldl_drops (hclean : p.Clean) (setup : RunSetup) :
    setup.drops.foldl (apply ignored) (p.withSetup setup) = p ∨
      setup.drops.foldl (apply ignored) (p.withSetup setup) = p.detach := by
  obtain ⟨sigpipe, saved, live, registered, workers, detached, poisoned, misused⟩ := p
  obtain ⟨rfl, rfl, rfl, rfl⟩ : live = [] ∧ registered = [] ∧ workers = 0 ∧ misused = false :=
    ⟨hclean.live, hclean.registered, hclean.workers, hclean.misused⟩
  obtain ⟨test, reporting⟩ := setup
  cases reporting with
  | none => exact .inl (freeTest_withTest ignored hclean test)
  | stream =>
    right
    simp [RunSetup.drops, RunSetup.stream, RunSetup.pushReporter, withSetup, withWorker,
      RunProcess.apply, RunProcess.detach]
  | pushReporter =>
    left
    simp [RunSetup.drops, RunSetup.stream, RunSetup.pushReporter, withSetup, withWorker,
      RunProcess.apply]

theorem falls_run (hclean : p.Clean) (hsigpipe : p.sigpipe = ignored)
    (hsaved : p.saved .test = none) (setup : RunSetup) :
    Falls ignored (p.withSetup setup) (unwinding setup.drops (attempt (runTest env setup.test)))
      (fun _ => p.withSetup setup) p := by
  have hsame := withSetup_sigpipe p setup
  have hrun := leaves_attempt_same (leaves_runTest env setup.test (hsame.1.trans hsigpipe)
    (by rw [hsame.2, hsaved]) (withSetup_live p setup))
  refine triple_unwinding _ fun s hs => ?_
  have hh := hrun s hs
  cases hending : (attempt (runTest env setup.test)).ending with
  | ok result =>
    rw [hending] at hh
    exact hh
  | error e => exact absurd hending (attempt_ne_error _ e)
  | panicked =>
    rw [hending] at hh
    change List.foldl _ s _ = p.withSetup setup at hh
    rw [hh]
    exact foldl_drops hclean setup

/-- The worker of the stream is at its end. -/
def RunProcess.joined (p : RunProcess D) (setup : RunSetup) : RunProcess D :=
  if setup.reporting = .pushReporter then p.withWorker setup.test else p.withTest setup.test

theorem foldl_join (hclean : p.Clean) (test : ℕ) :
    [RunEffect.unregister test, .joinWorker].foldl (apply ignored) (p.withWorker test) =
      p.withTest test := joinWorker_withWorker ignored hclean test

theorem leaves_join (hclean : p.Clean) (test : ℕ) :
    Leaves (apply ignored) (p.withWorker test) (emits [.unregister test, .joinWorker] : Run Unit)
      (fun _ => p.withTest test) (p.withTest test) :=
  triple_emits _ fun _ hs => hs ▸ foldl_join hclean test

theorem leaves_joinWorker (hclean : p.Clean) (setup : RunSetup) :
    Leaves (apply ignored) (p.withSetup setup) (joinWorker env setup) (fun _ => p.joined setup)
      (p.withTest setup.test) := by
  obtain ⟨test, reporting⟩ := setup
  cases reporting with
  | none => exact triple_pure _ fun _ => id
  | pushReporter => exact triple_pure _ fun _ => id
  | stream =>
    refine leaves_bind (leaves_join hclean test) fun _ _ => ?_
    cases env.worker with
    | none => exact leaves_fail _ _
    | some result => exact leaves_ofExcept result

theorem leaves_finishReporter (hclean : p.Clean) (setup : RunSetup) :
    Leaves (apply ignored) (p.joined setup) (finishReporter env setup)
      (fun _ => p.withTest setup.test) (p.withTest setup.test) := by
  obtain ⟨test, reporting⟩ := setup
  cases reporting with
  | none => exact triple_pure _ fun _ => id
  | stream => exact triple_pure _ fun _ => id
  | pushReporter =>
    refine leaves_bind (leaves_join hclean test) fun _ _ => ?_
    cases env.sinks with
    | none => exact leaves_fail _ _
    | some result => exact leaves_ofExcept result

end Command

section Locked

variable {ignored} {p failed : RunProcess D} (env : RunEnv F) (lib : Libiperf)
  (quoted : String → String) (request : RunRequest) (ready : Bool)

theorem leaves_reportFailure {α : Type} {x : Run α} {ok : α → RunProcess D}
    (hx : Leaves (apply ignored) p x ok failed) :
    Leaves (apply ignored) p (reportFailure ready x) ok failed := by
  refine leaves_bind (leaves_attempt hx) fun result _ => ?_
  cases result with
  | ok a => exact triple_pure _ fun _ => id
  | error e =>
    refine leaves_bind (leaves_notifyReady ready _) fun _ _ => ?_
    exact leaves_fail _ _

theorem falls_measure (hclean : p.Clean) (hsigpipe : p.sigpipe = ignored)
    (hsaved : p.saved .test = none) :
    Falls ignored p (measure env lib quoted request ready)
      (fun measured => p.withTest measured.setup.test) p := by
  refine falls_bind (falls_of_leaves (leaves_reportFailure ready
    (leaves_setupRun env hclean lib quoted request))) fun setup _ => ?_
  refine falls_bind (falls_of_leaves (leaves_notifyReady ready _)) fun _ _ => ?_
  refine falls_bind (falls_run env hclean hsigpipe hsaved setup) fun result _ => ?_
  refine falls_of_leaves (leaves_unwinding ?_ (foldl_free ignored hclean setup.test))
  refine leaves_bind (leaves_joinWorker env hclean setup) fun _ _ => ?_
  refine leaves_bind (leaves_attempt_same (leaves_finishReporter env hclean setup))
    fun pushResult _ => ?_
  exact triple_pure _ fun _ => id

/-- The state behind the guard of `run_command`. -/
def RunProcess.restored (ignored : D) (p : RunProcess D) (works : Bool) : RunProcess D :=
  { p with sigpipe := if works then p.sigpipe else ignored }

theorem restore_command (hsaved : p.saved .command = none) (works : Bool) :
    (p.apply ignored (.ignoreSigpipe .command)).apply ignored (.restoreSigpipe .command works) =
        p.restored ignored works ∧
      (p.apply ignored (.ignoreSigpipe .command)).detach.apply ignored
        (.restoreSigpipe .command works) = (p.restored ignored works).detach ∧
      ∀ test, ((p.apply ignored (.ignoreSigpipe .command)).withTest test).apply ignored
        (.restoreSigpipe .command works) = (p.restored ignored works).withTest test := by
  have hupdate : Function.update p.saved .command none = p.saved := by
    rw [← hsaved, Function.update_eq_self]
  simp [RunProcess.apply, RunProcess.restored, RunProcess.detach, withTest, hsaved, hupdate]

theorem falls_runLocked (hidle : p.Idle) :
    Falls ignored p (runLocked env lib quoted request ready)
      (fun _ => p.restored ignored (env.restores .command))
      (if env.ignores .command then p.restored ignored (env.restores .command) else p) := by
  obtain ⟨hrestore, hdetach, htest⟩ := @restore_command D ignored p
    (hidle.saved .command) (env.restores .command)
  have hclean : (p.apply ignored (.ignoreSigpipe .command)).Clean :=
    ⟨hidle.live, hidle.registered, hidle.workers,
      by simp [RunProcess.apply, hidle.misused, hidle.saved]⟩
  have hother : (p.apply ignored (.ignoreSigpipe .command)).saved .test = none := by
    simp [RunProcess.apply, hidle.saved]
  by_cases hignores : env.ignores .command = true
  · rw [if_pos hignores]
    have hinstall : Leaves (apply ignored) p (installSigpipe env .command)
        (fun _ => p.apply ignored (.ignoreSigpipe .command))
        (p.restored ignored (env.restores .command)) := by
      rw [installSigpipe, if_pos hignores]
      exact leaves_emit _
    refine falls_bind (falls_of_leaves (leaves_reportFailure ready hinstall)) fun _ _ => ?_
    refine falls_bind (falls_unwinding
      (falls_measure env lib quoted request ready hclean rfl hother) hrestore hdetach)
      fun measured _ => ?_
    have hrestored : (p.restored ignored (env.restores .command)).Clean :=
      ⟨hidle.live, hidle.registered, hidle.workers, hidle.misused⟩
    refine falls_of_leaves (leaves_scope ?_
      (foldl_free ignored hrestored measured.setup.test))
    refine leaves_bind (leaves_restoreSigpipe env .command (htest _)) fun _ _ => ?_
    refine leaves_bind (leaves_ofExcept _) fun _ _ => ?_
    refine leaves_bind (leaves_ofExcept _) fun _ _ => ?_
    exact triple_pure _ fun _ => id
  · rw [if_neg hignores]
    have hinstall : Leaves (apply ignored) p (installSigpipe env .command)
        (fun _ => p.apply ignored (.ignoreSigpipe .command)) p := leaves_installSigpipe env .command
    refine falls_bind (falls_of_leaves (leaves_reportFailure ready hinstall)) fun _ hok => ?_
    rw [installSigpipe, if_neg hignores] at hok
    cases hok

/-- The process behind one run. -/
theorem runLocked_state (hidle : p.Idle) :
    let run := runLocked env lib quoted request ready
    let p' := run.trace.foldl (apply ignored) p
    p'.Idle ∧ p'.poisoned = p.poisoned ∧
      (p'.sigpipe = p.sigpipe ∨ (env.restores .command = false ∧ p'.sigpipe = ignored)) := by
  have hfalls := (falls_runLocked env lib quoted request ready hidle : Falls ignored p _ _ _) p rfl
  have hrestored : (p.restored ignored (env.restores .command)).Idle :=
    ⟨hidle.saved, hidle.live, hidle.registered, hidle.workers, hidle.misused⟩
  have hsigpipe : (p.restored ignored (env.restores .command)).sigpipe = p.sigpipe ∨
      (env.restores .command = false ∧
        (p.restored ignored (env.restores .command)).sigpipe = ignored) := by
    cases env.restores .command with
    | true => exact .inl rfl
    | false => exact .inr ⟨rfl, rfl⟩
  have hfailed : ∀ q, q = (if env.ignores .command then
      p.restored ignored (env.restores .command) else p) →
      q.Idle ∧ q.poisoned = p.poisoned ∧
        (q.sigpipe = p.sigpipe ∨ (env.restores .command = false ∧ q.sigpipe = ignored)) := by
    intro q hq
    split at hq <;> subst hq
    · exact ⟨hrestored, rfl, hsigpipe⟩
    · exact ⟨hidle, rfl, .inl rfl⟩
  simp only
  cases hending : (runLocked env lib quoted request ready).ending with
  | ok result =>
    rw [hending] at hfalls
    rw [show List.foldl _ p _ = p.restored ignored (env.restores .command) from hfalls]
    exact ⟨hrestored, rfl, hsigpipe⟩
  | error e =>
    rw [hending] at hfalls
    exact hfailed _ hfalls
  | panicked =>
    rw [hending] at hfalls
    rcases hfalls with hstate | hstate
    · exact hfailed _ hstate
    · obtain ⟨hq, hpoisoned, hsig⟩ := hfailed _ rfl
      rw [hstate]
      exact ⟨⟨hq.saved, hq.live, hq.registered, hq.workers, hq.misused⟩, hpoisoned, hsig⟩

def Ending.isPanic {ε α : Type} : Ending ε α → Bool
  | .panicked => true
  | _ => false

/-- A run leaves nothing behind, whatever the native calls and the other threads come to: an error
or a panic at any point included. -/
theorem runCommand_state (hidle : p.Idle) :
    let run := runCommand env lib quoted request ready p.poisoned
    let p' := run.trace.foldl (apply ignored) p
    p'.Idle ∧ p'.poisoned = (p.poisoned || run.ending.isPanic) ∧
      (p'.sigpipe = p.sigpipe ∨ (env.restores .command = false ∧ p'.sigpipe = ignored)) := by
  simp only [runCommand]
  by_cases hpoisoned : p.poisoned = true
  · rw [if_pos hpoisoned]
    exact ⟨hidle, by simp [fail, hpoisoned], .inl rfl⟩
  · rw [if_neg hpoisoned]
    obtain ⟨hq, hsame, hsig⟩ := runLocked_state env lib quoted request ready hidle
    rw [scope]
    simp only [List.foldl_append]
    cases hending : (runLocked env lib quoted request ready).ending with
    | ok result => exact ⟨hq, by simp [hsame, Ending.isPanic], hsig⟩
    | error e => exact ⟨hq, by simp [hsame, Ending.isPanic], hsig⟩
    | panicked =>
      exact ⟨⟨hq.saved, hq.live, hq.registered, hq.workers, hq.misused⟩,
        by simp [RunProcess.apply, Ending.isPanic], hsig⟩

end Locked

section Concurrent

variable {ι : Type} [DecidableEq ι] (lib : Libiperf) (quoted : String → String)
  (env : ι → RunEnv F) (request : ι → RunRequest) (ready : ι → Bool)

/-- What each of the runs does when it has the lock. -/
def runProgram (i : ι) (p : RunProcess D) : List RunEffect :=
  (runCommand (env i) lib quoted (request i) (ready i) p.poisoned).trace

variable {ignored}

theorem misused_foldl {p : RunProcess D} (h : p.misused = true) (effects : List RunEffect) :
    (effects.foldl (apply ignored) p).misused = true := by
  induction effects generalizing p with
  | nil => exact h
  | cons e effects ih =>
    refine ih ?_
    cases e with
    | restoreSigpipe guard works =>
      simp only [RunProcess.apply]
      split
      · rfl
      · exact h
    | _ => simp [RunProcess.apply, h]

/-- Runs on any number of threads never misuse what they share, at whatever effect of a run the
others take their turns, and nothing of them is left when the lock is free. SIGPIPE is then as
before the first of them, unless a run could not restore it. -/
theorem runs_serialized {p : RunProcess D} (hidle : p.Idle)
    {m : CriticalSection.Threads ι RunEffect (RunProcess D)}
    (hreachable : CriticalSection.Reachable (runProgram lib quoted env request ready)
      (apply ignored) p m) :
    m.state.misused = false ∧ (m.Free → m.state.Idle ∧
      ((∀ i ∈ m.entered, (env i).restores .command = true) → m.state.sigpipe = p.sigpipe)) := by
  have hrun : ∀ i (s : RunProcess D), s.Idle → _ := fun i s hs =>
    @runCommand_state D F ignored s (env i) lib quoted (request i) (ready i) hs
  have hcut : ∀ i (s : RunProcess D) done rest, s.Idle →
      runProgram lib quoted env request ready i s = done ++ rest →
      (done.foldl (apply ignored) s).misused = false := by
    intro i s done rest hs hprogram
    have hend : ((runProgram lib quoted env request ready i s).foldl (apply ignored) s).misused =
        false := (hrun i s hs).1.misused
    rw [hprogram, List.foldl_append] at hend
    by_contra hmisused
    rw [Bool.not_eq_false] at hmisused
    rw [misused_foldl hmisused] at hend
    cases hend
  obtain ⟨hmisused, hfree⟩ := CriticalSection.invariant (I := RunProcess.Idle)
    (M := fun s => s.misused = false) hidle (fun s hs => hs.misused) (fun i _ s hs => (hrun i s hs).1)
    (fun i _ s done rest hs => hcut i s done rest hs) hreachable
  refine ⟨hmisused, fun hlock => ⟨hfree hlock, fun hrestores => ?_⟩⟩
  have hsection : ∀ i ∈ m.entered, ∀ s : RunProcess D, s.Idle ∧ s.sigpipe = p.sigpipe →
      (CriticalSection.runSection (runProgram lib quoted env request ready) (apply ignored) s
        i).Idle ∧
      (CriticalSection.runSection (runProgram lib quoted env request ready) (apply ignored) s
        i).sigpipe = p.sigpipe := by
    rintro i hi s ⟨hs, hsigpipe⟩
    obtain ⟨hq, -, hsig⟩ := hrun i s hs
    refine ⟨hq, ?_⟩
    rcases hsig with hsame | ⟨hfails, -⟩
    · exact hsame.trans hsigpipe
    · rw [hrestores i hi] at hfails
      cases hfails
  exact ((CriticalSection.invariant (M := fun s => s.misused = false) ⟨hidle, rfl⟩
    (fun s hs => hs.1.misused) hsection
    (fun i _ s done rest hs => hcut i s done rest hs.1) hreachable).2 hlock).2

end Concurrent

section Samples

def sampleRunEnv (test : ℕ) : RunEnv Unit where
  ignores _ := true
  restores _ := true
  address := some test
  defaults := true
  memory := true
  role := .client
  oneOff := false
  registry := true
  limit := 10 ^ 18
  clock := 0
  clockAgain := 0
  thread := true
  pushGateway := .ok ()
  served := some (.ok ())
  json := none
  worker := some (.ok ())
  sinks := some (.ok ())
  events := []
  currentError := ""

def sampleRequest : RunRequest :=
  { IperfCommand.ofArgs ["-c", "host"] with
    metricsMode := .interval
    pushgateway := none
    allowUnboundedServer := false }

/-- Two runs: behind the first the lock is free, then the second has it, which will not restore
SIGPIPE. -/
theorem runs_serialized_two :
    ∃ m m' : CriticalSection.Threads Bool RunEffect (RunProcess Bool),
      m.entered = [false] ∧ m.Free ∧ m.state.Idle ∧ m.state.sigpipe = false ∧
        m'.entered = [false, true] ∧ m'.state.sigpipe = true ∧ m'.state.misused = false := by
  let p : RunProcess Bool := ⟨false, fun _ => none, [], [], 0, 0, false, false⟩
  let env (i : Bool) : RunEnv Unit :=
    { sampleRunEnv (if i then 1 else 2) with restores := fun _ => !i }
  let program := runProgram (D := Bool) sampleLibiperf id env (fun _ : Bool => sampleRequest)
    (fun _ => true)
  have hidle : p.Idle := ⟨fun _ => rfl, rfl, rfl, rfl, rfl⟩
  have hfirst : CriticalSection.Reachable program (RunProcess.apply true) p _ :=
    CriticalSection.Reachable.section .refl (fun _ _ => nofun) (i := false) rfl
  have hfree : CriticalSection.Threads.Free (A := RunEffect) (S := RunProcess Bool)
      ⟨CriticalSection.runSection program (RunProcess.apply true) p false,
        Function.update (fun _ => .waiting) false .left, [false]⟩ := by
    intro i rest
    cases i <;> simp
  have hsecond := (hfirst.tail (.enter true rfl hfree)).tail
    (.act true (.ignoreSigpipe .command) _ rfl)
  obtain ⟨-, hbehind⟩ := runs_serialized sampleLibiperf id env _ _ hidle hfirst
  obtain ⟨hidle', hsigpipe⟩ := hbehind hfree
  have hrestores : ∀ i ∈ [false], (env i).restores .command = true := by
    intro i hi
    obtain rfl := List.mem_singleton.mp hi
    rfl
  exact ⟨_, _, rfl, hfree, hidle', hsigpipe hrestores, rfl, rfl,
    (runs_serialized sampleLibiperf id env _ _ hidle hsecond).1⟩

end Samples

end Iperf3Rs
