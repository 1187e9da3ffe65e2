import Iperf3Rs.RunCommand

/-! What the caller of a run gets: the result of `run`, and what `spawn` returns as soon as the
setup is known to have succeeded or failed. -/

namespace Iperf3Rs

open Scoped

variable {F : Type} (env : RunEnv F) (lib : Libiperf) (quoted : String → String)
  (request : RunRequest)

/-- No message for the thread that waits. -/
def RunEffect.Silent (e : RunEffect) : Prop := e.message = none

section Silent

theorem silent_newTest : (newTest env).Within RunEffect.Silent := by
  rw [newTest]
  cases env.address with
  | none => exact within_fail _
  | some test =>
    refine within_bind (within_emit rfl) fun _ _ => within_unwinding ?_ (by simp [RunEffect.Silent,
      RunEffect.message])
    refine within_bind (within_emit rfl) fun _ _ => ?_
    split
    · exact within_pure _
    · exact within_fail _

theorem silent_attachCallback (test : ℕ) : (attachCallback env test).Within RunEffect.Silent := by
  rw [attachCallback]
  split
  · exact within_emits (by simp [RunEffect.Silent, RunEffect.message])
  · exact within_fail _

theorem silent_spawnThread : (spawnThread env).Within RunEffect.Silent := by
  rw [spawnThread]
  split
  · exact within_emit rfl
  · exact nofun

theorem silent_unregister {α : Type} {x : Run α} {test : ℕ} (hx : x.Within RunEffect.Silent) :
    (unwinding [.unregister test] x).Within RunEffect.Silent :=
  within_unwinding hx (by simp [RunEffect.Silent, RunEffect.message])

theorem silent_attachSinks (test : ℕ) (pushInterval : Option Duration) :
    (attachSinks env test pushInterval).Within RunEffect.Silent := by
  have hattach := within_bind (f := fun _ => unwinding [.unregister test] (spawnThread env))
    (silent_attachCallback env test) fun _ _ => silent_unregister (silent_spawnThread env)
  unfold attachSinks
  cases pushInterval with
  | some interval => exact within_bind (within_ofExcept _) fun _ _ => hattach
  | none => exact hattach

theorem silent_setupRun : (setupRun env lib quoted request).Within RunEffect.Silent := by
  refine within_bind (within_ofExcept _) fun _ _ => ?_
  refine within_bind (within_ofExcept _) fun _ _ => ?_
  refine within_bind (silent_newTest env) fun test _ => ?_
  refine within_unwinding ?_ (by simp [RunEffect.Silent, RunEffect.message])
  refine within_bind (within_emit rfl) fun _ _ => ?_
  refine within_bind (within_ofExcept _) fun _ _ => ?_
  refine within_bind (within_ofExcept _) fun _ _ => ?_
  cases request.metricsMode.callbackQueue with
  | some queue =>
    refine within_bind (silent_attachCallback env test) fun _ _ => ?_
    refine within_bind (silent_unregister ?_) fun _ _ => within_pure _
    exact within_bind (within_ofExcept _) fun _ _ => silent_spawnThread env
  | none =>
    cases request.pushgateway with
    | some mode =>
      refine within_bind (within_ofExcept _) fun _ _ => ?_
      exact within_bind (silent_attachSinks env test _) fun _ _ => within_pure _
    | none => exact within_pure _

theorem silent_installSigpipe (guard : Guard) :
    (installSigpipe env guard).Within RunEffect.Silent := by
  rw [installSigpipe]
  split
  · exact within_emit rfl
  · exact within_fail _

theorem silent_restoreSigpipe (guard : Guard) :
    (restoreSigpipe env guard).Within RunEffect.Silent := by
  refine within_bind (within_emit rfl) fun _ _ => ?_
  split
  · exact within_pure _
  · exact within_fail _

theorem silent_runRole (test : ℕ) : (runRole env test).Within RunEffect.Silent := by
  unfold runRole
  cases env.role with
  | client | server => exact within_bind (within_emit rfl) fun _ _ => within_ofEnd _
  | unknown role => exact within_fail _

theorem silent_runTest (test : ℕ) : (runTest env test).Within RunEffect.Silent := by
  refine within_bind (silent_installSigpipe env .test) fun _ _ => ?_
  refine within_bind (within_unwinding (within_attempt (silent_runRole env test))
    (by simp [RunEffect.Silent, RunEffect.message])) fun _ _ => ?_
  exact within_bind (silent_restoreSigpipe env .test) fun _ _ => within_ofExcept _

theorem silent_drops (setup : RunSetup) : ∀ e ∈ setup.drops, e.Silent := by
  obtain ⟨test, reporting⟩ := setup
  cases reporting <;>
    simp [RunSetup.drops, RunSetup.stream, RunSetup.pushReporter, RunEffect.Silent,
      RunEffect.message]

theorem silent_joinWorker (setup : RunSetup) : (joinWorker env setup).Within RunEffect.Silent := by
  rw [joinWorker]
  split
  · refine within_bind (within_emits (by simp [RunEffect.Silent, RunEffect.message]))
      fun _ _ => ?_
    cases env.worker with
    | none => exact within_fail _
    | some result => exact within_ofExcept result
  · exact within_pure _

theorem silent_finishReporter (setup : RunSetup) :
    (finishReporter env setup).Within RunEffect.Silent := by
  rw [finishReporter]
  split
  · refine within_bind (within_emits (by simp [RunEffect.Silent, RunEffect.message]))
      fun _ _ => ?_
    cases env.sinks with
    | none => exact within_fail _
    | some result => exact within_ofExcept result
  · exact within_pure _

end Silent

section Messages

variable {α β : Type}

theorem messages_silent {x : Run α} (h : x.Within RunEffect.Silent) : messages x = [] :=
  List.filterMap_eq_nil_iff.mpr h

theorem messages_bind (x : Run α) (f : α → Run β) : messages (x >>= f) =
    messages x ++ match x.ending with
      | .ok a => messages (f a)
      | _ => [] := by
  rw [messages, bind_trace, List.filterMap_append]
  cases x.ending <;> rfl

theorem messages_scope (x : Run α) {drops : Ending Error α → List RunEffect}
    (h : ∀ ending, ∀ e ∈ drops ending, e.Silent) : messages (x.scope drops) = messages x := by
  have hdrops : (drops x.ending).filterMap RunEffect.message = [] :=
    List.filterMap_eq_nil_iff.mpr (h x.ending)
  rw [messages, scope, List.filterMap_append, hdrops, List.append_nil]
  rfl

theorem messages_notifyReady (ready : Bool) (message : Except String Bool) :
    messages (notifyReady ready message) = if ready then [message] else [] := by
  cases ready <;> rfl

/-- The error of a failure is told, a panic is not. -/
theorem messages_reportFailure {x : Run α} (h : x.Within RunEffect.Silent) (ready : Bool) :
    messages (reportFailure ready x) =
        (match x.ending with
          | .error e => if ready then [.error e.message] else []
          | _ => []) ∧
      (reportFailure ready x).ending = x.ending := by
  have hsilent := messages_silent (within_attempt h)
  rw [reportFailure, messages_bind, hsilent, bind_ending]
  rw [attempt]
  cases x.ending with
  | ok a => exact ⟨rfl, rfl⟩
  | panicked => exact ⟨rfl, rfl⟩
  | error e =>
    simp only [messages_bind, messages_notifyReady, bind_ending]
    cases ready <;> exact ⟨rfl, rfl⟩

end Messages

section Spawn

variable (ready : Bool)

theorem messages_measure : messages (measure env lib quoted request ready) =
    match (setupRun env lib quoted request).ending with
      | .ok setup => if ready then [.ok setup.stream] else []
      | .error e => if ready then [.error e.message] else []
      | .panicked => [] := by
  obtain ⟨hmessages, hending⟩ := messages_reportFailure (silent_setupRun env lib quoted request) ready
  rw [measure, messages_bind, hmessages, hending]
  cases (setupRun env lib quoted request).ending with
  | error e => simp
  | panicked => simp
  | ok setup =>
    have hrest : (do
        let result ← unwinding setup.drops (attempt (runTest env setup.test))
        unwinding [.freeTest setup.test] do
          joinWorker env setup
          let pushResult ← attempt (finishReporter env setup)
          pure (⟨setup, result, pushResult⟩ : Measured)).Within RunEffect.Silent := by
      refine within_bind (within_unwinding (within_attempt (silent_runTest env setup.test))
        (silent_drops setup)) fun result _ => ?_
      refine within_unwinding ?_ (by simp [RunEffect.Silent, RunEffect.message])
      refine within_bind (silent_joinWorker env setup) fun _ _ => ?_
      exact within_bind (within_attempt (silent_finishReporter env setup)) fun _ _ => within_pure _
    simp only [List.nil_append]
    rw [messages_bind, messages_notifyReady]
    refine (congrArg _ (messages_silent hrest)).trans (List.append_nil _)

theorem silent_finish (measured : Measured) :
    (scope (fun _ => [.freeTest measured.setup.test]) do
      restoreSigpipe env .command
      ofExcept measured.result
      ofExcept measured.pushResult
      pure (⟨env.role, env.json, if measured.setup.stream && !ready then env.events else []⟩ :
        IperfResult F)).Within RunEffect.Silent := by
  refine within_scope ?_ (by simp [RunEffect.Silent, RunEffect.message])
  refine within_bind (silent_restoreSigpipe env .command) fun _ _ => ?_
  refine within_bind (within_ofExcept _) fun _ _ => ?_
  exact within_bind (within_ofExcept _) fun _ _ => within_pure _

theorem messages_runLocked : messages (runLocked env lib quoted request ready) =
    if !env.ignores .command then
      if ready then [.error "failed to save and ignore SIGPIPE"] else []
    else messages (measure env lib quoted request ready) := by
  obtain ⟨hmessages, hending⟩ := messages_reportFailure (silent_installSigpipe env .command) ready
  rw [runLocked, messages_bind, hmessages, hending, installSigpipe]
  by_cases hignores : env.ignores .command = true
  · have hdrops : ∀ e ∈ [RunEffect.restoreSigpipe .command (env.restores .command)], e.Silent := by
      simp [RunEffect.Silent, RunEffect.message]
    have hunwinding : messages (unwinding [.restoreSigpipe .command (env.restores .command)]
        (measure env lib quoted request ready)) = messages (measure env lib quoted request ready) :=
      messages_scope _ fun ending e he => by
        cases ending with
        | ok a => cases he
        | error err => exact hdrops e he
        | panicked => exact hdrops e he
    simp only [hignores, if_true, emit, List.nil_append, Bool.not_true, Bool.false_eq_true,
      if_false]
    rw [messages_bind, hunwinding]
    refine (congrArg _ ?_).trans (List.append_nil _)
    split
    · exact messages_silent (silent_finish env ready _)
    · rfl
  · simp [hignores, fail]

theorem messages_runCommand (poisoned : Bool) :
    messages (runCommand env lib quoted request ready poisoned) =
      if poisoned || !ready then []
      else if !env.ignores .command then [.error "failed to save and ignore SIGPIPE"]
      else match (setupRun env lib quoted request).ending with
        | .ok setup => [.ok setup.stream]
        | .error e => [.error e.message]
        | .panicked => [] := by
  rw [runCommand]
  by_cases hpoisoned : poisoned = true
  · rw [if_pos hpoisoned, if_pos (by rw [hpoisoned]; rfl)]
    rfl
  · rw [if_neg hpoisoned, messages_scope _ (by
      intro ending e he
      cases ending with
      | ok a => cases he
      | error e => cases he
      | panicked =>
        rw [List.mem_singleton.mp he]
        rfl), messages_runLocked, messages_measure]
    rw [Bool.not_eq_true] at hpoisoned
    simp only [hpoisoned, Bool.false_or]
    cases ready with
    | true => simp
    | false => cases (setupRun env lib quoted request).ending <;> simp

end Spawn

section Results

theorem installSigpipe_ok {guard : Guard} {u : Unit} :
    (installSigpipe env guard).ending = .ok u ↔ env.ignores guard = true := by
  rw [installSigpipe]
  split
  · next h => simp [emit, h]
  · next h => simp [fail, h]

theorem restoreSigpipe_ok {guard : Guard} {u : Unit} :
    (restoreSigpipe env guard).ending = .ok u ↔ env.restores guard = true := by
  rw [restoreSigpipe, ending_bind_ok]
  by_cases h : env.restores guard = true
  · rw [if_pos h]
    exact ⟨fun _ => h, fun _ => ⟨(), rfl, rfl⟩⟩
  · rw [if_neg h]
    refine ⟨fun ⟨_, _, hfail⟩ => ?_, fun hh => absurd hh h⟩
    cases hfail

theorem newTest_ok {test : ℕ} : (newTest env).ending = .ok test ↔
    env.address = some test ∧ env.defaults = true := by
  rw [newTest]
  cases env.address with
  | none => simp [ending_fail_ne]
  | some address =>
    by_cases hdefaults : env.defaults = true
    · simp [ending_bind_ok, ending_unwinding, ending_emit, ending_pure_ok, hdefaults]
    · simp [ending_bind_ok, ending_unwinding, ending_fail_ne, hdefaults]

theorem runRole_ok {test : ℕ} {u : Unit} : (runRole env test).ending = .ok u ↔
    (env.role = .client ∨ env.role = .server) ∧ env.served = some (.ok ()) := by
  unfold runRole
  cases env.role with
  | client => simp only [ending_bind_ok, ending_ofEnd_ok]; simp [emit]
  | server => simp only [ending_bind_ok, ending_ofEnd_ok]; simp [emit]
  | unknown role => simp [fail]

theorem runTest_ok {test : ℕ} {u : Unit} : (runTest env test).ending = .ok u ↔
    env.ignores .test = true ∧ env.restores .test = true ∧
      (env.role = .client ∨ env.role = .server) ∧ env.served = some (.ok ()) := by
  rw [runTest, ending_bind_ok]
  constructor
  · rintro ⟨_, hinstall, h⟩
    obtain ⟨result, hresult, h⟩ := ending_bind_ok.mp h
    obtain ⟨_, hrestore, h⟩ := ending_bind_ok.mp h
    rw [ending_ofExcept_ok.mp h] at hresult
    obtain ⟨hrole, hserved⟩ := (runRole_ok env).mp (ending_attempt_ok.mp hresult)
    exact ⟨(installSigpipe_ok env).mp hinstall, (restoreSigpipe_ok env).mp hrestore, hrole, hserved⟩
  · rintro ⟨hinstall, hrestore, hrun⟩
    refine ⟨(), (installSigpipe_ok env).mpr hinstall, ending_bind_ok.mpr ⟨.ok u, ?_, ?_⟩⟩
    · exact ending_attempt_ok.mpr ((runRole_ok env).mpr hrun)
    · exact ending_bind_ok.mpr ⟨(), (restoreSigpipe_ok env).mpr hrestore, rfl⟩

theorem joinWorker_ok {setup : RunSetup} {u : Unit} : (joinWorker env setup).ending = .ok u ↔
    (setup.stream = true → env.worker = some (.ok ())) := by
  rw [joinWorker]
  split
  · next h =>
    rw [ending_bind_ok]
    cases env.worker with
    | none => simp [emits, fail, h]
    | some result => simp [emits, ending_ofExcept_ok, h]
  · next h => simp [h]; rfl

theorem finishReporter_ok {setup : RunSetup} {u : Unit} :
    (finishReporter env setup).ending = .ok u ↔
      (setup.pushReporter = true → env.sinks = some (.ok ())) := by
  rw [finishReporter]
  split
  · next h =>
    rw [ending_bind_ok]
    cases env.sinks with
    | none => simp [emits, fail, h]
    | some result => simp [emits, ending_ofExcept_ok, h]
  · next h => simp [h]; rfl

theorem reportFailure_ok {α : Type} {x : Run α} {ready : Bool} {a : α} :
    (reportFailure ready x).ending = .ok a ↔ x.ending = .ok a := by
  rw [reportFailure, bind_ending, attempt]
  cases x.ending with
  | ok a' => exact Iff.rfl
  | panicked => simp
  | error e =>
    simp only [bind_ending]
    simp [fail, notifyReady, emits]

theorem measure_ok {ready : Bool} {measured : Measured} :
    (measure env lib quoted request ready).ending = .ok measured ↔
      (setupRun env lib quoted request).ending = .ok measured.setup ∧
      (attempt (runTest env measured.setup.test)).ending = .ok measured.result ∧
      (measured.setup.stream = true → env.worker = some (.ok ())) ∧
      (attempt (finishReporter env measured.setup)).ending = .ok measured.pushResult := by
  rw [measure, ending_bind_ok]
  constructor
  · rintro ⟨setup, hsetup, h⟩
    obtain ⟨_, -, h⟩ := ending_bind_ok.mp h
    obtain ⟨ran, hran, h⟩ := ending_bind_ok.mp h
    change Scoped.ending (joinWorker env setup >>= _) = _ at h
    obtain ⟨_, hjoin, h⟩ := ending_bind_ok.mp h
    obtain ⟨pushed, hpush, h⟩ := ending_bind_ok.mp h
    cases h
    exact ⟨reportFailure_ok.mp hsetup, hran, (joinWorker_ok env).mp hjoin, hpush⟩
  · rintro ⟨hsetup, hran, hjoin, hpush⟩
    refine ⟨measured.setup, reportFailure_ok.mpr hsetup, ?_⟩
    refine ending_bind_ok.mpr ⟨(), rfl, ending_bind_ok.mpr ⟨measured.result, hran, ?_⟩⟩
    change Scoped.ending (joinWorker env measured.setup >>= _) = _
    refine ending_bind_ok.mpr ⟨(), (joinWorker_ok env).mpr hjoin, ?_⟩
    exact ending_bind_ok.mpr ⟨measured.pushResult, hpush, rfl⟩

theorem runLocked_ok {ready : Bool} {result : IperfResult F} :
    (runLocked env lib quoted request ready).ending = .ok result ↔
      env.ignores .command = true ∧ ∃ measured,
        (measure env lib quoted request ready).ending = .ok measured ∧
        env.restores .command = true ∧ measured.result = .ok () ∧ measured.pushResult = .ok () ∧
        result = ⟨env.role, env.json,
          if measured.setup.stream && !ready then env.events else []⟩ := by
  rw [runLocked, ending_bind_ok]
  constructor
  · rintro ⟨_, hinstall, h⟩
    obtain ⟨measured, hmeasure, h⟩ := ending_bind_ok.mp h
    change Scoped.ending (restoreSigpipe env .command >>= _) = _ at h
    obtain ⟨_, hrestore, h⟩ := ending_bind_ok.mp h
    obtain ⟨_, hresult, h⟩ := ending_bind_ok.mp h
    obtain ⟨_, hpush, h⟩ := ending_bind_ok.mp h
    cases h
    exact ⟨(installSigpipe_ok env).mp (reportFailure_ok.mp hinstall), measured, hmeasure,
      (restoreSigpipe_ok env).mp hrestore, ending_ofExcept_ok.mp hresult,
      ending_ofExcept_ok.mp hpush, rfl⟩
  · rintro ⟨hinstall, measured, hmeasure, hrestore, hresult, hpush, rfl⟩
    refine ⟨(), reportFailure_ok.mpr ((installSigpipe_ok env).mpr hinstall), ?_⟩
    refine ending_bind_ok.mpr ⟨measured, hmeasure, ?_⟩
    change Scoped.ending (restoreSigpipe env .command >>= _) = _
    refine ending_bind_ok.mpr ⟨(), (restoreSigpipe_ok env).mpr hrestore, ?_⟩
    rw [hresult, hpush]
    rfl

end Results

/-- `run` succeeds exactly if the setup does, the run itself and the threads that take its samples,
and both guards have been installed and restored. The events are in the result of a run that no
thread waits for. -/
theorem runCommand_ok (ready poisoned : Bool) (result : IperfResult F) :
    (runCommand env lib quoted request ready poisoned).ending = .ok result ↔
      poisoned = false ∧ (∀ guard, env.ignores guard = true ∧ env.restores guard = true) ∧
      (env.role = .client ∨ env.role = .server) ∧ env.served = some (.ok ()) ∧
      ∃ setup, (setupRun env lib quoted request).ending = .ok setup ∧
        (setup.stream = true → env.worker = some (.ok ())) ∧
        (setup.pushReporter = true → env.sinks = some (.ok ())) ∧
        result = ⟨env.role, env.json, if setup.stream && !ready then env.events else []⟩ := by
  rw [runCommand]
  by_cases hpoisoned : poisoned = true
  · simp [hpoisoned, fail]
  · rw [if_neg hpoisoned]
    change (runLocked env lib quoted request ready).ending = _ ↔ _
    rw [Bool.not_eq_true] at hpoisoned
    rw [runLocked_ok]
    constructor
    · rintro ⟨hinstall, ⟨setup, ran, pushed⟩, hmeasure, hrestore, rfl, rfl, rfl⟩
      obtain ⟨hsetup, hran, hworker, hpush⟩ := (measure_ok env lib quoted request).mp hmeasure
      obtain ⟨hinner, hrestoreInner, hrole, hserved⟩ :=
        (runTest_ok env).mp (ending_attempt_ok.mp hran)
      refine ⟨hpoisoned, fun guard => ?_, hrole, hserved, setup, hsetup, hworker,
        (finishReporter_ok env).mp (ending_attempt_ok.mp hpush), rfl⟩
      cases guard with
      | command => exact ⟨hinstall, hrestore⟩
      | test => exact ⟨hinner, hrestoreInner⟩
    · rintro ⟨-, hguards, hrole, hserved, setup, hsetup, hworker, hpush, rfl⟩
      refine ⟨(hguards .command).1, ⟨setup, .ok (), .ok ()⟩, ?_, (hguards .command).2, rfl, rfl, rfl⟩
      refine (measure_ok env lib quoted request).mpr ⟨hsetup, ?_, hworker, ?_⟩
      · exact ending_attempt_ok.mpr
          ((runTest_ok env).mpr ⟨(hguards .test).1, (hguards .test).2, hrole, hserved⟩)
      · exact ending_attempt_ok.mpr ((finishReporter_ok env).mpr hpush)

theorem setup_of_ok {ready poisoned : Bool} {result : IperfResult F}
    (h : (runCommand env lib quoted request ready poisoned).ending = .ok result) :
    poisoned = false ∧ env.ignores .command = true ∧
      ∃ setup, (setupRun env lib quoted request).ending = .ok setup := by
  rw [runCommand] at h
  split at h
  · cases h
  · next hpoisoned =>
    obtain ⟨hinstall, measured, hmeasure, -⟩ := (runLocked_ok env lib quoted request).mp h
    exact ⟨Bool.eq_false_iff.mpr hpoisoned, hinstall, measured.setup,
      ((measure_ok env lib quoted request).mp hmeasure).1⟩

/-- `spawn` hears of the run at most once, and it returns a handle exactly if the setup has
succeeded. If it returns an error, the thread ends without a result. -/
theorem spawn_returns (poisoned : Bool) :
    let run := runCommand env lib quoted request true poisoned
    (messages run).length ≤ 1 ∧
      (∀ stream, spawned (messages run) = .ok stream ↔ poisoned = false ∧
        env.ignores .command = true ∧
        ∃ setup, (setupRun env lib quoted request).ending = .ok setup ∧ setup.stream = stream) ∧
      ∀ e, spawned (messages run) = .error e →
        e.kind = .worker ∧ ∀ result, run.ending ≠ .ok result := by
  have hmessages := messages_runCommand env lib quoted request true poisoned
  simp only [Bool.not_true, Bool.or_false] at hmessages
  have hresult : ∀ result, (runCommand env lib quoted request true poisoned).ending = .ok result →
      ∃ stream, spawned (messages (runCommand env lib quoted request true poisoned)) =
        .ok stream := by
    intro result hok
    obtain ⟨hpoisoned, hinstall, setup, hsetup⟩ := setup_of_ok env lib quoted request hok
    rw [hmessages, hpoisoned, hinstall, hsetup]
    exact ⟨setup.stream, rfl⟩
  have hkind : ∀ e, spawned (messages (runCommand env lib quoted request true poisoned)) =
      .error e → e.kind = .worker := by
    intro e he
    unfold spawned at he
    split at he <;> cases he <;> rfl
  simp only
  refine ⟨?_, fun stream => ?_, fun e he => ⟨hkind e he, fun result hok => ?_⟩⟩
  · rw [hmessages]
    split
    · simp
    · split
      · simp
      · split <;> simp
  · rw [hmessages]
    cases poisoned with
    | true => simp [spawned]
    | false =>
      cases hinstall : env.ignores .command with
      | false => simp [spawned]
      | true =>
        cases (setupRun env lib quoted request).ending <;> simp [spawned]
  · obtain ⟨stream, hstream⟩ := hresult result hok
    rw [hstream] at he
    cases he

end Iperf3Rs
