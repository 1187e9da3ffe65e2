import Iperf3Rs.CliRuntime

/-! The retirement of the wake descriptor: `iperf3rs_cli_cleanup` takes it back, waits for the
activations that are counted, and closes it. -/

namespace Iperf3Rs

namespace CliRuntime

/-- Steps at which `cli_writefd` may hold the descriptor. -/
def MainPc.publishes : MainPc → Bool
  | .clearSignal | .sigaction _ | .createPidfile | .running _ | .selectCheck _ | .selectWait _
  | .selectRecheck _ | .restore _ | .retire => true
  | _ => false

/-- Steps at which an activation may have loaded it. -/
def MainPc.lends : MainPc → Bool
  | .drain => true
  | pc => pc.publishes

/-- Steps between the creation of the pipe and its publication. -/
def MainPc.configures : MainPc → Bool
  | .fcntl _ | .storeReadfd | .storeWritefd => true
  | _ => false

structure Guarded (s : Runtime) : Prop where
  counted : s.globals.handlers = UInt32.ofNat s.inFlight
  piped : s.main.configures = true → s.state.pipefd.2 = s.globals.writeEnd
  published : ∀ fd, s.globals.writefd = some fd →
    s.main.publishes = true ∧ s.globals.writeEnd = some fd
  loaded : ∀ a ∈ s.activations, ∀ fd, a.pc = .loaded (some fd) →
    s.main.lends = true ∧ s.globals.writeEnd = some fd

/-- The main thread does not read the counter while 2^32 activations are counted. -/
def Runtime.Bounded (s : Runtime) : Action → Prop
  | .main _ => s.main = .drain → s.inFlight < 2 ^ 32
  | _ => True

def Runtime.BoundedStep (capacity : ℕ) (s s' : Runtime) : Prop :=
  ∃ action, s.Bounded action ∧ s.step capacity action = some s'

theorem countP_set_add {α : Type*} {p : α → Bool} {l : List α} {i : ℕ} {a : α} (b : α)
    (h : l[i]? = some a) :
    (l.set i b).countP p + (if p a then 1 else 0) = l.countP p + (if p b then 1 else 0) := by
  obtain ⟨hi, ha⟩ := List.getElem?_eq_some_iff.mp h
  have hpos : p a = true → 0 < l.countP p := by
    intro hp
    exact List.countP_pos_iff.mpr ⟨a, List.mem_of_getElem? h, hp⟩
  rw [List.countP_set hi, ha]
  split
  · next hp =>
    have := hpos hp
    omega
  · omega

theorem restoreFrom_publishes (count : ℕ) : (restoreFrom count).publishes = true := by
  cases count <;> rfl

theorem MainPc.lends_of_publishes {pc : MainPc} (h : pc.publishes = true) : pc.lends = true := by
  cases pc with
  | drain => rfl
  | _ => exact h

section Steps

variable {capacity : ℕ} {s s' : Runtime}

theorem guarded_start {signal : ℕ} {leftover : List Activation}
    (h : ∀ a ∈ leftover, ∀ fd, a.pc ≠ .loaded (some fd)) :
    Guarded (Runtime.start signal leftover) where
  counted := rfl
  piped hpc := by cases hpc
  published fd hfd := by cases hfd
  loaded a ha fd hfd := absurd hfd (h a ha fd)

theorem Globals.write_writeEnd (capacity : ℕ) (g : Globals) (fd : ℕ) :
    (g.write capacity fd).writeEnd = g.writeEnd ∧ (g.write capacity fd).writefd = g.writefd ∧
      (g.write capacity fd).handlers = g.handlers := by
  simp only [write]
  split <;> exact ⟨rfl, rfl, rfl⟩

/-- What a step of a handler does to the variables of the protocol. -/
theorem handlerStep_counts {g g' : Globals} {a a' : Activation}
    (h : handlerStep capacity g a = some (g', a')) :
    g'.writefd = g.writefd ∧ g'.writeEnd = g.writeEnd ∧
      (∀ fd, a'.pc = .loaded (some fd) → g.writefd = some fd) ∧
      (a.inFlight = a'.inFlight ∧ g'.handlers = g.handlers ∨
        a.inFlight = false ∧ a'.inFlight = true ∧ g'.handlers = g.handlers + 1 ∨
        a.inFlight = true ∧ a'.inFlight = false ∧ g'.handlers = g.handlers - 1) := by
  obtain ⟨signal, pc⟩ := a
  cases pc with
  | entered =>
    cases h
    exact ⟨rfl, rfl, nofun, .inr (.inl ⟨rfl, rfl, rfl⟩)⟩
  | counted =>
    cases h
    exact ⟨rfl, rfl, nofun, .inl ⟨rfl, rfl⟩⟩
  | signalled =>
    cases h
    exact ⟨rfl, rfl, fun fd hfd => HandlerPc.loaded.inj hfd, .inl ⟨rfl, rfl⟩⟩
  | loaded fd =>
    cases fd with
    | none =>
      cases h
      exact ⟨rfl, rfl, nofun, .inl ⟨rfl, rfl⟩⟩
    | some fd =>
      cases h
      obtain ⟨hend, hfd, hcount⟩ := Globals.write_writeEnd capacity g fd
      exact ⟨hfd, hend, nofun, .inl ⟨rfl, hcount⟩⟩
  | written =>
    cases h
    exact ⟨rfl, rfl, nofun, .inr (.inr ⟨rfl, rfl, rfl⟩)⟩
  | returned => cases h

theorem Guarded.handler (h : Guarded s) {index : ℕ} {a a' : Activation} {globals : Globals}
    (ha : s.activations[index]? = some a)
    (hstep : handlerStep capacity s.globals a = some (globals, a')) :
    Guarded { s with globals := globals, activations := s.activations.set index a' } := by
  obtain ⟨hwritefd, hend, hloaded, hcount⟩ := handlerStep_counts hstep
  have hset := countP_set_add (p := Activation.inFlight) a' ha
  refine ⟨?_, fun hpc => (h.piped hpc).trans hend.symm, fun fd hfd => ?_, fun b hb fd hfd => ?_⟩
  · show globals.handlers = UInt32.ofNat ((s.activations.set index a').countP Activation.inFlight)
    have hcounted : s.globals.handlers =
      UInt32.ofNat (s.activations.countP Activation.inFlight) := h.counted
    rcases hcount with ⟨hsame, hhandlers⟩ | ⟨hout, hin, hhandlers⟩ | ⟨hin, hout, hhandlers⟩
    · rw [hsame] at hset
      rw [hhandlers, hcounted, Nat.add_right_cancel hset]
    · simp only [hout, hin, Bool.false_eq_true, if_false, if_true, Nat.add_zero] at hset
      rw [hhandlers, hcounted, hset, UInt32.ofNat_add]
      rfl
    · simp only [hout, hin, Bool.false_eq_true, if_false, if_true, Nat.add_zero] at hset
      rw [hhandlers, hcounted, ← hset, UInt32.ofNat_add]
      exact UInt32.add_sub_cancel _ _
  · rw [hend]
    exact h.published fd (hwritefd.symm.trans hfd)
  · rw [hend]
    rcases List.mem_or_eq_of_mem_set hb with hb | rfl
    · exact h.loaded b hb fd hfd
    · obtain ⟨hpublishes, hopen⟩ := h.published fd (hloaded fd hfd)
      exact ⟨MainPc.lends_of_publishes hpublishes, hopen⟩

/-- A step of the main thread that leaves the descriptors and the counter alone. -/
theorem Guarded.move (h : Guarded s) {globals : Globals} {state : CliState} {main : MainPc}
    (hglobals : globals.writefd = s.globals.writefd ∧ globals.writeEnd = s.globals.writeEnd ∧
      globals.handlers = s.globals.handlers)
    (hpublishes : s.main.publishes = true → main.publishes = true)
    (hlends : s.main.lends = true → main.lends = true)
    (hconfigures : main.configures = true → s.main.configures = true ∧ state = s.state) :
    Guarded { s with globals := globals, state := state, main := main } where
  counted := hglobals.2.2.trans h.counted
  piped hpc := by
    obtain ⟨hbefore, rfl⟩ := hconfigures hpc
    exact (h.piped hbefore).trans hglobals.2.1.symm
  published fd hfd := by
    obtain ⟨hpc, hend⟩ := h.published fd (hglobals.1.symm.trans hfd)
    exact ⟨hpublishes hpc, hglobals.2.1.trans hend⟩
  loaded a ha fd hfd := by
    obtain ⟨hpc, hend⟩ := h.loaded a ha fd hfd
    exact ⟨hlends hpc, hglobals.2.1.trans hend⟩

/-- Once nothing is lent, the descriptors can change. -/
theorem Guarded.idle (h : Guarded s) (hlends : s.main.lends = false) {globals : Globals}
    {state : CliState} {main : MainPc} (hwritefd : globals.writefd = s.globals.writefd)
    (hhandlers : globals.handlers = s.globals.handlers)
    (hpiped : main.configures = true → state.pipefd.2 = globals.writeEnd) :
    Guarded { s with globals := globals, state := state, main := main } where
  counted := hhandlers.trans h.counted
  piped := hpiped
  published fd hfd := by
    obtain ⟨hpc, -⟩ := h.published fd (hwritefd.symm.trans hfd)
    cases (MainPc.lends_of_publishes hpc).symm.trans hlends
  loaded a ha fd hfd := by
    obtain ⟨hpc, -⟩ := h.loaded a ha fd hfd
    cases hpc.symm.trans hlends

theorem restoreFrom_configures (count : ℕ) : (restoreFrom count).configures = false := by
  cases count <;> rfl

theorem not_loaded_of_inFlight (h : s.inFlight = 0) {a : Activation} (ha : a ∈ s.activations)
    (fd : Option ℕ) : a.pc ≠ .loaded fd := by
  intro hpc
  have hnone := List.countP_eq_zero.mp h a ha
  exact hnone (by simp only [Activation.inFlight, hpc])

theorem Guarded.main (h : Guarded s) {outcome : Outcome} {globals : Globals} {state : CliState}
    {main : MainPc} (hstep : MainSteps s.globals s.state s.main outcome globals state main)
    (hbound : s.main = .drain → s.inFlight < 2 ^ 32) :
    Guarded { s with globals := globals, state := state, main := main } := by
  obtain ⟨g, st, pc, activations⟩ := s
  cases hstep with
  | began | refused | copied => exact h.idle rfl rfl rfl nofun
  | piped readEnd writeEnd => exact h.idle rfl rfl rfl fun _ => rfl
  | configured remaining pc hpc => exact h.idle rfl rfl rfl fun _ => h.piped rfl
  | storedReadfd => exact h.idle rfl rfl rfl fun _ => h.piped rfl
  | storedWritefd =>
    have hpiped : st.pipefd.2 = g.writeEnd := h.piped rfl
    refine ⟨h.counted, nofun, fun fd hfd => ⟨rfl, hpiped.symm.trans hfd⟩, fun a ha fd hfd => ?_⟩
    cases (h.loaded a ha fd hfd).1
  | clearedSignal => exact h.move ⟨rfl, rfl, rfl⟩ (fun _ => rfl) (fun _ => rfl) nofun
  | installed index signal pc hpc =>
    rcases hpc with rfl | rfl
    · exact h.move ⟨rfl, rfl, rfl⟩ (fun _ => rfl) (fun _ => rfl) nofun
    · exact h.move ⟨rfl, rfl, rfl⟩ (fun _ => rfl) (fun _ => rfl) nofun
  | abandoned pc outcome hpc =>
    refine h.move ⟨rfl, rfl, rfl⟩ (fun _ => restoreFrom_publishes _)
      (fun _ => MainPc.lends_of_publishes (restoreFrom_publishes _)) fun hc => ?_
    cases (restoreFrom_configures _).symm.trans hc
  | prepared | selecting | plain | interrupted | waiting | plainReady | ready | failed
  | rechecked =>
    exact h.move ⟨rfl, rfl, rfl⟩ (fun _ => rfl) (fun _ => rfl) nofun
  | restored count outcome handled =>
    refine h.move ⟨rfl, rfl, rfl⟩ (fun _ => restoreFrom_publishes _)
      (fun _ => MainPc.lends_of_publishes (restoreFrom_publishes _)) fun hc => ?_
    cases (restoreFrom_configures _).symm.trans hc
  | retired => exact ⟨h.counted, nofun, nofun, fun a ha fd hfd => ⟨rfl, (h.loaded a ha fd hfd).2⟩⟩
  | draining => exact h.move ⟨rfl, rfl, rfl⟩ nofun (fun _ => rfl) nofun
  | drained hhandlers =>
    have hzero : Runtime.inFlight ⟨g, st, .drain, activations⟩ = 0 := by
      have hlt := hbound rfl
      have hcount := congrArg UInt32.toNat (h.counted.symm.trans hhandlers)
      rwa [UInt32.toNat_ofNat_of_lt' hlt] at hcount
    refine ⟨h.counted, nofun, fun fd hfd => ?_, fun a ha fd hfd => ?_⟩
    · cases (h.published fd hfd).1
    · exact absurd hfd (not_loaded_of_inFlight hzero ha _)
  | forgot | reset | closedRead | closedWrite => exact h.idle rfl rfl rfl nofun

theorem Guarded.step (h : Guarded s) {action : Action} (hbound : s.Bounded action)
    (hstep : s.step capacity action = some s') : Guarded s' := by
  cases Runtime.step_steps hstep with
  | delivered signal hhandled =>
    refine ⟨h.counted.trans ?_, h.piped, h.published, fun a ha fd hfd => ?_⟩
    · simp [Runtime.inFlight, Activation.inFlight]
    · rcases List.mem_append.mp ha with ha | ha
      · exact h.loaded a ha fd hfd
      · cases List.mem_singleton.mp ha
        cases hfd
  | handled index a a' globals ha hhandler => exact h.handler ha hhandler
  | moved outcome globals state main hmain => exact h.main hmain hbound

/-- A handler never writes to a descriptor that is not the open write end of the wake pipe. -/
theorem cli_handlers_retire {signal : ℕ} {leftover : List Activation}
    (hleftover : ∀ a ∈ leftover, ∀ fd, a.pc ≠ .loaded (some fd))
    (h : Relation.ReflTransGen (Runtime.BoundedStep capacity) (Runtime.start signal leftover) s) :
    ∀ a ∈ s.activations, ∀ fd, a.pc = .loaded (some fd) → s.globals.writeEnd = some fd := by
  have hguarded : Guarded s := by
    induction h with
    | refl => exact guarded_start hleftover
    | tail _ hstep ih =>
      obtain ⟨action, hbound, hstep⟩ := hstep
      exact ih.step hbound hstep
  exact fun a ha fd hfd => (hguarded.loaded a ha fd hfd).2

theorem Runtime.step_length {action : Action} (h : s.step capacity action = some s') :
    s'.activations.length ≤ s.activations.length + 1 := by
  cases step_steps h <;> simp

/-- A run of fewer than 2^32 steps does not come near the bound. -/
theorem Runtime.bounded_of_run {actions : List Action} (h : s.run capacity actions = some s')
    (hlength : s.activations.length + actions.length < 2 ^ 32) :
    Relation.ReflTransGen (Runtime.BoundedStep capacity) s s' := by
  induction actions generalizing s with
  | nil =>
    cases h
    exact .refl
  | cons action actions ih =>
    obtain ⟨mid, hstep, hrun⟩ := Option.bind_eq_some_iff.mp h
    have hmid := Runtime.step_length hstep
    rw [List.length_cons] at hlength
    have hbound : s.Bounded action := by
      cases action with
      | main outcome =>
        intro _
        have := List.countP_le_length (p := Activation.inFlight) (l := s.activations)
        rw [Runtime.inFlight]
        omega
      | _ => trivial
    exact .head ⟨action, hbound, hstep⟩ (ih hrun (by omega))

end Steps

/-- The cleanup up to the first look at the counter. -/
def retireActions : List Action :=
  [.main .cleanup, .main .ok, .main .ok, .main .ok, .main .ok]

def closeActions : List Action := [.main .ok, .main .ok, .main .ok, .main .ok]

theorem cli_handlers_retire_draining : ∃ s, Runtime.run 65536 (Runtime.start 0 [])
    (prepareActions ++ loadActions 0 ++ retireActions ++ [.main .ok]) = some s ∧
    s.activations = [⟨.int, .loaded (some 4)⟩] ∧ s.globals.writeEnd = some 4 := by
  have hrun : Runtime.run 65536 (Runtime.start 0 [])
    (prepareActions ++ loadActions 0 ++ retireActions ++ [.main .ok]) = some _ := rfl
  refine ⟨_, hrun, rfl, ?_⟩
  exact cli_handlers_retire (fun _ ha => absurd ha List.not_mem_nil)
    (Runtime.bounded_of_run hrun (by decide)) _ List.mem_cons_self 4 rfl

section Overflow

variable (capacity : ℕ)

theorem run_load {g : Globals} (st : CliState) (main : MainPc) (activations : List Activation)
    (hhandled : g.handled .int = true) :
    Runtime.run capacity ⟨g, st, main, activations⟩ (loadActions activations.length) =
      some ⟨{ g with handlers := g.handlers + 1, signal := 2 }, st, main,
        activations ++ [⟨.int, .loaded g.writefd⟩]⟩ := by
  simp [loadActions, Runtime.run, Runtime.step, hhandled, handlerStep, Signal.number]

/-- Any number of activations may have loaded the descriptor. -/
theorem reaches_crowd {g : Globals} {st : CliState} {main : MainPc} (n : ℕ)
    (hhandled : g.handled .int = true) (hhandlers : g.handlers = 0) :
    Runtime.Reaches capacity ⟨g, st, main, []⟩
      ⟨{ g with handlers := UInt32.ofNat n, signal := if n = 0 then g.signal else 2 }, st, main,
        List.replicate n ⟨.int, .loaded g.writefd⟩⟩ := by
  induction n with
  | zero =>
    rw [if_pos rfl]
    have hzero : UInt32.ofNat 0 = g.handlers := hhandlers.symm
    rw [hzero]
    exact .refl
  | succ n ih =>
    have hload := run_load capacity
      (g := { g with handlers := UInt32.ofNat n, signal := if n = 0 then g.signal else 2 })
      st main (List.replicate n ⟨.int, .loaded g.writefd⟩) hhandled
    rw [if_neg (Nat.succ_ne_zero n), List.replicate_succ', UInt32.ofNat_add]
    exact ih.trans (Runtime.reaches_of_run _ _ hload)

theorem run_prepare : ∃ handled : Signal → Bool, handled .int = true ∧
    Runtime.run capacity (Runtime.start 0 []) prepareActions =
      some ⟨⟨0, some 4, 0, some 3, handled, 0, some 4⟩, ⟨(some 3, some 4), 3⟩, .running none, []⟩ :=
  ⟨_, rfl, rfl⟩

theorem run_close (g : Globals) (activations : List Activation) (hhandlers : g.handlers = 0) :
    ∃ s, Runtime.run capacity ⟨g, ⟨(some 3, some 4), 3⟩, .running none, activations⟩
        (retireActions ++ [.main .ok] ++ closeActions) = some s ∧
      s.main = .finished ∧ s.globals.writeEnd = none ∧ s.activations = activations := by
  obtain ⟨signal, writefd, handlers, readfd, handled, buffered, writeEnd⟩ := g
  cases hhandlers
  exact ⟨_, rfl, rfl, rfl, rfl⟩

/-- 2^32 activations have loaded the descriptor when the main thread finds the counter at zero,
and one of them writes after the pipe is closed. -/
theorem cli_handlers_overflow : ∃ s, Runtime.Reaches 65536 (Runtime.start 0 []) s ∧
    s.main = .finished ∧ s.globals.writeEnd = none ∧
    ∃ a ∈ s.activations, a.pc = .loaded (some 4) := by
  obtain ⟨handled, hint, hprepare⟩ := run_prepare 65536
  have hcrowd := (Runtime.reaches_of_run _ _ hprepare).trans (reaches_crowd 65536 4294967296 hint rfl)
  have hzero : UInt32.ofNat 4294967296 = 0 := by decide
  obtain ⟨s, hrun, hmain, hend, hactivations⟩ := run_close 65536
    ⟨2, some 4, UInt32.ofNat 4294967296, some 3, handled, 0, some 4⟩
    (List.replicate 4294967296 ⟨.int, .loaded (some 4)⟩) hzero
  refine ⟨s, hcrowd.trans (Runtime.reaches_of_run _ _ hrun), hmain, hend, ?_⟩
  rw [hactivations]
  exact ⟨_, List.mem_replicate.mpr ⟨by decide, rfl⟩, rfl⟩

end Overflow

end CliRuntime

end Iperf3Rs
