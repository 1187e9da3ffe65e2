import Iperf3Rs.CliRuntime

/-! The wake pipe: a signal whose handler has returned makes `iperf3rs_cli_select` return, and
its caller sees nothing of the pipe. -/

namespace Iperf3Rs

namespace CliRuntime

/-- The steps between a successful `iperf3rs_cli_prepare` and `iperf3rs_cli_cleanup`. -/
def MainPc.prepared : MainPc → Bool
  | .running _ | .selectCheck _ | .selectWait _ | .selectRecheck _ => true
  | _ => false

/-- The activation has set `cli_signal` and has not finished its write. -/
def HandlerPc.waking : HandlerPc → Bool
  | .signalled | .loaded _ => true
  | _ => false

def HandlerPc.wrote : HandlerPc → Bool
  | .written | .returned => true
  | _ => false

/-- No handler has been installed yet. -/
def Runtime.Quiet (s : Runtime) : Prop :=
  s.activations = [] ∧ ∀ signal, s.globals.handled signal = false

structure Live (g : Globals) (activations : List Activation) : Prop where
  published : ∃ readEnd writeEnd, g.readfd = some readEnd ∧ g.writefd = some writeEnd ∧
    g.writeEnd = some writeEnd
  loaded : ∀ a ∈ activations, ∀ fd, a.pc = .loaded fd → fd = g.writefd
  flagged : ∀ a ∈ activations, a.pc.waking = true → g.signal ≠ 0
  woken : ∀ a ∈ activations, a.pc.wrote = true → 0 < g.buffered
  pending : g.signal ≠ 0 → (∃ a ∈ activations, a.pc.waking = true) ∨ 0 < g.buffered
  readable : 0 < g.buffered → g.signal ≠ 0

/-- Nothing of the wake pipe is reported: its read end is in no set, and is not counted. -/
def SelectReturn.Hides (ret : SelectReturn) (fd : ℕ) : Prop :=
  ∀ count, ret.result = .ok count → fd ∉ ret.sets.read ∧ fd ∉ ret.sets.write ∧
    fd ∉ ret.sets.except ∧ count = ret.sets.count

/-- What is known at each step of the main thread, up to the cleanup. -/
def Runtime.Alert (s : Runtime) : Prop :=
  match s.main with
  | .prepare | .copyPidfile | .pipe => s.Quiet
  | .fcntl _ | .storeReadfd => s.Quiet ∧ s.globals.buffered = 0 ∧
      ∃ readEnd writeEnd, s.state.pipefd = (some readEnd, some writeEnd) ∧
        s.globals.writeEnd = some writeEnd
  | .storeWritefd => s.Quiet ∧ s.globals.buffered = 0 ∧
      ∃ readEnd writeEnd, s.state.pipefd = (some readEnd, some writeEnd) ∧
        s.globals.writeEnd = some writeEnd ∧ s.globals.readfd = some readEnd
  | .clearSignal => s.Quiet ∧ s.globals.buffered = 0 ∧
      ∃ readEnd writeEnd, s.globals.readfd = some readEnd ∧ s.globals.writefd = some writeEnd ∧
        s.globals.writeEnd = some writeEnd
  | .sigaction _ | .createPidfile | .selectCheck _ | .running none =>
    Live s.globals s.activations
  | .running (some ret) => Live s.globals s.activations ∧
      ∀ fd, s.globals.readfd = some fd → ret.Hides fd
  | .selectWait call => Live s.globals s.activations ∧
      ∀ fd, s.globals.readfd = some fd → fd ∈ call.sets.read ∧ (fd : Int) < call.nfds
  | .selectRecheck ret => Live s.globals s.activations ∧
      (s.globals.buffered = 0 → ∀ fd, s.globals.readfd = some fd → ret.Hides fd)
  | _ => True

section Steps

variable {capacity : ℕ} {s s' : Runtime} {g g' : Globals} {activations : List Activation}
  {a a' : Activation}

theorem Signal.number_ne_zero (signal : Signal) : signal.number ≠ 0 := by
  cases signal <;> decide

theorem mem_set_or {α : Type*} {l : List α} {i : ℕ} {x y : α} (z : α) (hx : l[i]? = some x)
    (hy : y ∈ l) : y = x ∨ y ∈ l.set i z := by
  obtain ⟨j, hj⟩ := List.mem_iff_getElem?.mp hy
  by_cases hij : i = j
  · subst hij
    exact .inl (Option.some.inj (hj.symm.trans hx))
  · refine .inr (List.mem_iff_getElem?.mpr ⟨j, ?_⟩)
    rw [List.getElem?_set_ne hij, hj]

theorem Live.deliver (h : Live g activations) (signal : Signal) :
    Live g (activations ++ [⟨signal, .entered⟩]) where
  published := h.published
  loaded a ha fd hfd := by
    rcases List.mem_append.mp ha with ha | ha
    · exact h.loaded a ha fd hfd
    · cases List.mem_singleton.mp ha
      cases hfd
  flagged a ha hpc := by
    rcases List.mem_append.mp ha with ha | ha
    · exact h.flagged a ha hpc
    · cases List.mem_singleton.mp ha
      cases hpc
  woken a ha hpc := by
    rcases List.mem_append.mp ha with ha | ha
    · exact h.woken a ha hpc
    · cases List.mem_singleton.mp ha
      cases hpc
  pending hsignal := by
    rcases h.pending hsignal with ⟨a, ha, hpc⟩ | hbuffered
    · exact .inl ⟨a, List.mem_append_left _ ha, hpc⟩
    · exact .inr hbuffered
  readable := h.readable

/-- What a step of a handler does for the wake-up. -/
structure HandlerWakes (g g' : Globals) (a a' : Activation) : Prop where
  readfd : g'.readfd = g.readfd
  writefd : g'.writefd = g.writefd
  writeEnd : g'.writeEnd = g.writeEnd
  signal : g.signal ≠ 0 → g'.signal ≠ 0
  buffered : g.buffered ≤ g'.buffered
  loaded : ∀ fd, a'.pc = .loaded fd → fd = g.writefd
  flagged : a'.pc.waking = true → g'.signal ≠ 0
  pending : g'.signal ≠ 0 → g.signal ≠ 0 ∨ a'.pc.waking = true
  waking : a.pc.waking = true → a'.pc.waking = true ∨ 0 < g'.buffered
  woken : a'.pc.wrote = true → 0 < g'.buffered
  readable : 0 < g'.buffered → 0 < g.buffered ∨ a.pc.waking = true

/-- A step that touches neither the flag nor the pipe. -/
theorem handlerWakes_of_same {handlers : UInt32} {pc : HandlerPc} (hpc : pc.waking = false)
    (ha : a.pc.waking = false) (hwrote : pc.wrote = true → 0 < g.buffered) :
    HandlerWakes g { g with handlers := handlers } a { a with pc := pc } where
  readfd := rfl
  writefd := rfl
  writeEnd := rfl
  signal := id
  buffered := Nat.le_refl _
  loaded fd hfd := by
    cases hfd
    cases hpc
  flagged hw := by cases hpc.symm.trans hw
  pending := .inl
  waking hw := by cases ha.symm.trans hw
  woken := hwrote
  readable := .inl

theorem Live.write (h : Live g activations) (hcapacity : 0 < capacity) {fd : ℕ}
    (hfd : some fd = g.writefd) :
    g.buffered ≤ (g.write capacity fd).buffered ∧ 0 < (g.write capacity fd).buffered ∧
      (g.write capacity fd).signal = g.signal ∧ (g.write capacity fd).readfd = g.readfd ∧
      (g.write capacity fd).writefd = g.writefd ∧ (g.write capacity fd).writeEnd = g.writeEnd := by
  obtain ⟨readEnd, writeEnd, -, hwrite, hend⟩ := h.published
  have hopen : g.writeEnd = some fd := by rw [hend, ← hwrite, hfd]
  by_cases hroom : g.buffered < capacity
  · simp [Globals.write, hopen, hroom]
  · have hfull : 0 < g.buffered := by omega
    simp [Globals.write, hroom, hfull]

theorem Live.handlerWakes (h : Live g activations) (hcapacity : 0 < capacity)
    (ha : a ∈ activations) (hstep : handlerStep capacity g a = some (g', a')) :
    HandlerWakes g g' a a' := by
  obtain ⟨signal, pc⟩ := a
  cases pc with
  | entered =>
    cases hstep
    exact handlerWakes_of_same rfl rfl nofun
  | counted =>
    cases hstep
    have hsignal := signal.number_ne_zero
    exact ⟨rfl, rfl, rfl, fun _ => hsignal, Nat.le_refl _, nofun, fun _ => hsignal,
      fun _ => .inr rfl, nofun, nofun, .inl⟩
  | signalled =>
    cases hstep
    have hsignal := h.flagged _ ha rfl
    exact ⟨rfl, rfl, rfl, id, Nat.le_refl _, fun fd hfd => (HandlerPc.loaded.inj hfd).symm,
      fun _ => hsignal, .inl, fun _ => .inl rfl, nofun, .inl⟩
  | loaded fd =>
    have hfd := h.loaded _ ha fd rfl
    cases fd with
    | none =>
      obtain ⟨readEnd, writeEnd, -, hwrite, -⟩ := h.published
      cases hfd.trans hwrite
    | some fd =>
      cases hstep
      obtain ⟨hgrows, hbyte, hsignal, hreadfd, hwritefd, hend⟩ := h.write hcapacity hfd
      exact ⟨hreadfd, hwritefd, hend, fun hs => hsignal ▸ hs, hgrows, nofun, nofun,
        fun hs => .inl (hsignal ▸ hs), fun _ => .inr hbyte, fun _ => hbyte, fun _ => .inr rfl⟩
  | written =>
    cases hstep
    exact handlerWakes_of_same rfl rfl fun _ => h.woken _ ha rfl
  | returned => cases hstep

theorem Live.handler (h : Live g activations) {index : ℕ} (ha : activations[index]? = some a)
    (hw : HandlerWakes g g' a a') : Live g' (activations.set index a') where
  published := by
    obtain ⟨readEnd, writeEnd, hread, hwrite, hend⟩ := h.published
    exact ⟨readEnd, writeEnd, hw.readfd.trans hread, hw.writefd.trans hwrite,
      hw.writeEnd.trans hend⟩
  loaded b hb fd hfd := by
    rw [hw.writefd]
    rcases List.mem_or_eq_of_mem_set hb with hb | rfl
    · exact h.loaded b hb fd hfd
    · exact hw.loaded fd hfd
  flagged b hb hpc := by
    rcases List.mem_or_eq_of_mem_set hb with hb | rfl
    · exact hw.signal (h.flagged b hb hpc)
    · exact hw.flagged hpc
  woken b hb hpc := by
    rcases List.mem_or_eq_of_mem_set hb with hb | rfl
    · exact Nat.lt_of_lt_of_le (h.woken b hb hpc) hw.buffered
    · exact hw.woken hpc
  pending hsignal := by
    have hnew : a' ∈ activations.set index a' :=
      List.mem_set (List.getElem?_eq_some_iff.mp ha).1 a'
    rcases hw.pending hsignal with hold | hpc
    · rcases h.pending hold with ⟨b, hb, hpc⟩ | hbuffered
      · rcases mem_set_or a' ha hb with rfl | hb
        · exact (hw.waking hpc).imp (fun hpc => ⟨a', hnew, hpc⟩) id
        · exact .inl ⟨b, hb, hpc⟩
      · exact .inr (Nat.lt_of_lt_of_le hbuffered hw.buffered)
    · exact .inl ⟨a', hnew, hpc⟩
  readable hbuffered := by
    refine hw.signal ?_
    rcases hw.readable hbuffered with hold | hpc
    · exact h.readable hold
    · exact h.flagged a (List.mem_of_getElem? ha) hpc

theorem Live.none (h : ∃ readEnd writeEnd, g.readfd = some readEnd ∧
    g.writefd = some writeEnd ∧ g.writeEnd = some writeEnd) (hbuffered : g.buffered = 0) :
    Live { g with signal := 0 } [] where
  published := h
  loaded _ ha := absurd ha List.not_mem_nil
  flagged _ ha := absurd ha List.not_mem_nil
  woken _ ha := absurd ha List.not_mem_nil
  pending hsignal := absurd rfl hsignal
  readable hlt := absurd hbuffered (Nat.pos_iff_ne_zero.mp hlt)

theorem Live.install (h : Live g activations) (handled : Signal → Bool) :
    Live { g with handled := handled } activations :=
  ⟨h.published, h.loaded, h.flagged, h.woken, h.pending, h.readable⟩

def MainPc.quiet : MainPc → Bool
  | .prepare | .copyPidfile | .pipe | .fcntl _ | .storeReadfd | .storeWritefd | .clearSignal => true
  | _ => false

def MainPc.live : MainPc → Bool
  | .sigaction _ | .createPidfile => true
  | pc => pc.prepared

theorem Runtime.Alert.quiet (h : s.Alert) (hpc : s.main.quiet = true) : s.Quiet := by
  obtain ⟨g, st, pc, activations⟩ := s
  cases pc with
  | prepare | copyPidfile | pipe => exact h
  | fcntl | storeReadfd | storeWritefd | clearSignal => exact h.1
  | _ => cases hpc

theorem Runtime.Alert.live (h : s.Alert) (hpc : s.main.live = true) :
    Live s.globals s.activations := by
  obtain ⟨g, st, pc, activations⟩ := s
  cases pc with
  | sigaction | createPidfile | selectCheck => exact h
  | running last =>
    cases last with
    | none => exact h
    | some ret => exact h.1
  | selectWait | selectRecheck => exact h.1
  | _ => cases hpc

/-- The main thread stays where it is. -/
theorem Runtime.Alert.frame (h : s.Alert) (hquiet : s.main.quiet = false)
    (hlive : s.main.live = true → g'.readfd = s.globals.readfd ∧
      s.globals.buffered ≤ g'.buffered ∧ Live g' activations) :
    Runtime.Alert { s with globals := g', activations := activations } := by
  obtain ⟨g, st, pc, before⟩ := s
  cases pc with
  | prepare | copyPidfile | pipe | fcntl | storeReadfd | storeWritefd | clearSignal => cases hquiet
  | sigaction | createPidfile | selectCheck => exact (hlive rfl).2.2
  | running last =>
    obtain ⟨hreadfd, -, hnext⟩ := hlive rfl
    cases last with
    | none => exact hnext
    | some ret => exact ⟨hnext, fun fd hfd => h.2 fd (hreadfd.symm.trans hfd)⟩
  | selectWait call =>
    obtain ⟨hreadfd, -, hnext⟩ := hlive rfl
    exact ⟨hnext, fun fd hfd => h.2 fd (hreadfd.symm.trans hfd)⟩
  | selectRecheck ret =>
    obtain ⟨hreadfd, hbuffered, hnext⟩ := hlive rfl
    refine ⟨hnext, fun hempty fd hfd => h.2 ?_ fd (hreadfd.symm.trans hfd)⟩
    exact Nat.le_zero.mp (hempty ▸ hbuffered)
  | _ => trivial

theorem restoreFrom_alert (g : Globals) (st : CliState) (count : ℕ)
    (activations : List Activation) :
    Runtime.Alert ⟨g, st, restoreFrom count, activations⟩ := by
  cases count <;> trivial

theorem Runtime.Alert.main (h : s.Alert) {outcome : Outcome} {globals : Globals}
    {state : CliState} {main : MainPc}
    (hstep : MainSteps s.globals s.state s.main outcome globals state main) :
    Runtime.Alert { s with globals := globals, state := state, main := main } := by
  obtain ⟨g, st, pc, activations⟩ := s
  cases hstep with
  | began | copied => exact h
  | piped readEnd writeEnd pc hpc =>
    rcases hpc with rfl | rfl
    · exact ⟨h, rfl, readEnd, writeEnd, rfl, rfl⟩
    · exact restoreFrom_alert _ _ _ _
  | configured remaining pc hpc =>
    rcases hpc with rfl | rfl
    · exact h
    · exact h
  | storedReadfd =>
    obtain ⟨hquiet, hempty, readEnd, writeEnd, hpipefd, hend⟩ := h
    exact ⟨hquiet, hempty, readEnd, writeEnd, hpipefd, hend, congrArg Prod.fst hpipefd⟩
  | storedWritefd =>
    obtain ⟨hquiet, hempty, readEnd, writeEnd, hpipefd, hend, hreadfd⟩ := h
    exact ⟨hquiet, hempty, readEnd, writeEnd, hreadfd, congrArg Prod.snd hpipefd, hend⟩
  | clearedSignal =>
    obtain ⟨⟨hnone, -⟩, hempty, hpublished⟩ := h
    cases hnone
    exact Live.none hpublished hempty
  | installed index signal pc hpc =>
    rcases hpc with rfl | rfl
    · exact Live.install h _
    · exact Live.install h _
  | prepared => exact h
  | abandoned => exact restoreFrom_alert _ _ _ _
  | selecting last call => exact Runtime.Alert.live (s := ⟨g, st, .running last, activations⟩) h rfl
  | plain call hreadfd =>
    refine ⟨h, fun fd hfd => ?_⟩
    cases hreadfd.symm.trans hfd
  | interrupted call hsignal => exact ⟨h, fun fd _ count hcount => by cases hcount⟩
  | waiting call fd hreadfd hsignal =>
    refine ⟨h, fun fd' hfd' => ?_⟩
    cases hreadfd.symm.trans hfd'
    refine ⟨Finset.mem_insert_self _ _, ?_⟩
    simp only [SelectCall.watch]
    split <;> omega
  | plainReady call outcome ret hreadfd =>
    refine ⟨h.1, fun fd hfd => ?_⟩
    cases hreadfd.symm.trans hfd
  | ready call ready fd hreadfd hready =>
    refine ⟨h.1, fun hempty fd' hfd' count hcount => ?_⟩
    cases hreadfd.symm.trans hfd'
    cases hcount
    obtain ⟨hread, hwrite, hexcept⟩ := hready.2.2.2.2.1 fd hreadfd
    have hnot : fd ∉ ready.read := fun hmem => absurd hempty (Nat.pos_iff_ne_zero.mp (hread.mp hmem).2.2)
    refine ⟨Finset.notMem_erase _ _, hwrite, hexcept, ?_⟩
    simp only [SelectReturn.clear, FdSets.count, Finset.erase_eq_of_notMem hnot]
  | failed call e fd hreadfd => exact ⟨h.1, fun _ fd' _ count hcount => by cases hcount⟩
  | rechecked ret =>
    refine ⟨h.1, fun fd hfd count hcount => ?_⟩
    by_cases hsignal : g.signal ≠ 0
    · rw [if_pos hsignal] at hcount
      cases hcount
    · have hempty : g.buffered = 0 := by
        by_contra hne
        exact hsignal (h.1.readable (Nat.pos_of_ne_zero hne))
      rw [if_neg hsignal] at hcount ⊢
      exact h.2 hempty fd hfd count hcount
  | restored => exact restoreFrom_alert _ _ _ _
  | refused | retired | draining | drained | forgot | reset | closedRead | closedWrite => trivial

theorem Runtime.Alert.step (h : s.Alert) (hcapacity : 0 < capacity) {action : Action}
    (hstep : s.step capacity action = some s') : s'.Alert := by
  cases Runtime.step_steps hstep with
  | delivered signal hhandled =>
    have hquiet : s.main.quiet = false := by
      cases hpc : s.main.quiet with
      | false => rfl
      | true => cases ((h.quiet hpc).2 signal).symm.trans hhandled
    exact h.frame hquiet fun hpc => ⟨rfl, Nat.le_refl _, (h.live hpc).deliver signal⟩
  | handled index a a' globals ha hhandler =>
    have hmem := List.mem_of_getElem? ha
    have hquiet : s.main.quiet = false := by
      cases hpc : s.main.quiet with
      | false => rfl
      | true =>
        rw [(h.quiet hpc).1] at hmem
        cases hmem
    refine h.frame hquiet fun hpc => ?_
    have hlive := h.live hpc
    have hw := hlive.handlerWakes hcapacity hmem hhandler
    exact ⟨hw.readfd, hw.buffered, hlive.handler ha hw⟩
  | moved outcome globals state main hmain => exact h.main hmain

theorem Runtime.Reaches.alert (hcapacity : 0 < capacity) {signal : ℕ}
    (h : Runtime.Reaches capacity (Runtime.start signal []) s) : s.Alert := by
  induction h with
  | refl => exact ⟨rfl, fun _ => rfl⟩
  | tail _ hstep ih =>
    obtain ⟨action, hstep⟩ := hstep
    exact ih.step hcapacity hstep

theorem MainPc.live_of_prepared {pc : MainPc} (h : pc.prepared = true) : pc.live = true := by
  cases pc with
  | sigaction | createPidfile => rfl
  | _ => exact h

/-- The steps of the main thread that a call of `iperf3rs_cli_select` still takes once `cli_signal`
is set. -/
def MainPc.selectSteps : MainPc → ℕ
  | .selectCheck _ | .selectRecheck _ => 1
  | .selectWait _ => 2
  | _ => 0

def Action.isMain : Action → Bool
  | .main _ => true
  | _ => false

/-- The call is `left` steps of the main thread from its return with `EINTR`, and none of them
has to wait: the pipe is among the descriptors that `select` has to report. -/
structure Runtime.Returning (capacity : ℕ) (s : Runtime) (left : ℕ) : Prop where
  woken : ∀ call, s.main = .selectWait call → ∃ fd, s.globals.readfd = some fd ∧
    call.Woken s.globals fd ∧ ∀ ready, call.Reports s.globals ready → fd ∈ ready.read
  moves : 0 < left → ∃ outcome s', (∀ e, outcome ≠ .fails e) ∧
    s.step capacity (.main outcome) = some s'
  returned : left = 0 → ∃ ret, s.main = .running (some ret) ∧ ret.result = .error .eintr

/-- The handler of a delivered signal has returned, and a call of `iperf3rs_cli_select` that has not
seen it yet has `left` steps to take. -/
structure Runtime.Interrupting (s : Runtime) (left : ℕ) : Prop where
  alert : s.Alert
  prepared : s.main.prepared = true
  handled : ∃ a ∈ s.activations, a.pc = .returned
  steps : s.main.selectSteps = left
  ended : left = 0 → ∃ ret, s.main = .running (some ret) ∧ ret.result = .error .eintr

theorem MainSteps.select_left {st st' : CliState} {pc pc' : MainPc} {outcome : Outcome}
    (h : MainSteps g st pc outcome g' st' pc') (hreadfd : g.readfd ≠ none) (hsignal : g.signal ≠ 0)
    (hselect : 0 < pc.selectSteps) :
    pc'.selectSteps + 1 = pc.selectSteps ∧ pc'.prepared = true ∧ (pc'.selectSteps = 0 →
      ∃ ret, pc' = .running (some ret) ∧ ret.result = .error .eintr) := by
  cases h with
  | plain call hplain | plainReady call outcome ret hplain => exact absurd hplain hreadfd
  | waiting call fd hfd hzero => exact absurd hzero hsignal
  | interrupted call => exact ⟨rfl, rfl, fun _ => ⟨_, rfl, rfl⟩⟩
  | ready call ready fd | failed call e fd => exact ⟨rfl, rfl, nofun⟩
  | rechecked ret =>
    refine ⟨rfl, rfl, fun _ => ⟨_, rfl, ?_⟩⟩
    rw [if_pos hsignal]
    rfl
  | abandoned pc outcome hpc =>
    rcases hpc with rfl | rfl | ⟨n, rfl⟩ | ⟨n, rfl⟩ | rfl | ⟨last, rfl⟩ <;> cases hselect
  | _ => cases hselect

/-- An activation that has returned stays where it is. -/
theorem handled_step {action : Action} (hstep : s.step capacity action = some s')
    (h : ∃ a ∈ s.activations, a.pc = .returned) : ∃ a ∈ s'.activations, a.pc = .returned := by
  obtain ⟨a, ha, hreturned⟩ := h
  cases Runtime.step_steps hstep with
  | delivered signal => exact ⟨a, List.mem_append_left _ ha, hreturned⟩
  | handled index b b' globals hb hhandler =>
    rcases mem_set_or b' hb ha with rfl | hset
    · obtain ⟨signal, pc⟩ := a
      cases hreturned
      cases hhandler
    · exact ⟨a, hset, hreturned⟩
  | moved => exact ⟨a, ha, hreturned⟩

theorem Runtime.Interrupting.woken {left : ℕ} (h : s.Interrupting left) :
    Live s.globals s.activations ∧ s.globals.readfd ≠ none ∧ 0 < s.globals.buffered ∧
      s.globals.signal ≠ 0 := by
  have hlive := h.alert.live (MainPc.live_of_prepared h.prepared)
  obtain ⟨a, ha, hreturned⟩ := h.handled
  have hbyte := hlive.woken a ha (by rw [hreturned]; rfl)
  obtain ⟨readEnd, writeEnd, hreadfd, -, -⟩ := hlive.published
  exact ⟨hlive, by rw [hreadfd]; exact Option.some_ne_none _, hbyte, hlive.readable hbyte⟩

theorem Runtime.Interrupting.main (hcapacity : 0 < capacity) {left : ℕ} {outcome : Outcome}
    (h : s.Interrupting (left + 1)) (hstep : s.step capacity (.main outcome) = some s') :
    s'.Interrupting left := by
  obtain ⟨-, hreadfd, -, hsignal⟩ := h.woken
  have halert := h.alert.step hcapacity hstep
  have hhandled := handled_step hstep h.handled
  obtain ⟨⟨globals, state, main⟩, hmain, hs'⟩ := Option.map_eq_some_iff.mp hstep
  cases hs'
  have hsteps := h.steps
  obtain ⟨hless, hprepared, hended⟩ :=
    (mainStep_steps hmain).select_left hreadfd hsignal (by omega)
  have hleft : main.selectSteps = left := by omega
  exact ⟨halert, hprepared, hhandled, hleft, fun hzero => hended (hleft.trans hzero)⟩

/-- Deliveries and handlers leave the main thread where it is. -/
theorem Runtime.Interrupting.other (hcapacity : 0 < capacity) {left : ℕ} {action : Action}
    (h : s.Interrupting left) (hother : action.isMain = false)
    (hstep : s.step capacity action = some s') : s'.Interrupting left := by
  have halert := h.alert.step hcapacity hstep
  have hhandled := handled_step hstep h.handled
  have hmain : s'.main = s.main := by
    cases Runtime.step_steps hstep with
    | delivered | handled => rfl
    | moved => cases hother
  exact ⟨halert, by rw [hmain]; exact h.prepared, hhandled, by rw [hmain]; exact h.steps,
    by rw [hmain]; exact h.ended⟩

theorem Runtime.Interrupting.run (hcapacity : 0 < capacity) {left : ℕ} (actions : List Action)
    (h : s.Interrupting left) (hrun : s.run capacity actions = some s')
    (hle : actions.countP Action.isMain ≤ left) :
    s'.Interrupting (left - actions.countP Action.isMain) := by
  induction actions generalizing s left with
  | nil =>
    cases hrun
    exact h
  | cons action actions ih =>
    obtain ⟨mid, hstep, hrest⟩ := Option.bind_eq_some_iff.mp hrun
    by_cases hmain : action.isMain = true
    · rw [List.countP_cons_of_pos hmain] at hle ⊢
      obtain ⟨less, rfl⟩ : ∃ less, left = less + 1 := ⟨left - 1, by omega⟩
      have hmid : mid.Interrupting less := by
        cases action with
        | main outcome => exact h.main hcapacity hstep
        | deliver | handler => cases hmain
      have hgo := ih hmid hrest (by omega)
      rwa [Nat.add_sub_add_right]
    · rw [List.countP_cons_of_neg hmain] at hle ⊢
      exact ih (h.other hcapacity (Bool.eq_false_iff.mpr hmain) hstep) hrest hle

/-- The report of the wake pipe alone. -/
def wakeReport (fd : ℕ) : FdSets := ⟨{fd}, ∅, ∅⟩

theorem SelectCall.Woken.reports {call : SelectCall} {fd : ℕ} (h : call.Woken g fd)
    (hreadfd : g.readfd = some fd) : call.Reports g (wakeReport fd) := by
  obtain ⟨hmem, hnfds, hbyte⟩ := h
  refine ⟨Finset.singleton_subset_iff.mpr hmem, Finset.empty_subset _, Finset.empty_subset _, ?_,
    ?_, nofun⟩
  · intro fd' hfd'
    obtain rfl : fd' = fd := by simpa [wakeReport] using hfd'
    exact hnfds
  · intro fd' hfd'
    obtain rfl : fd = fd' := Option.some.inj (hreadfd.symm.trans hfd')
    simp [wakeReport, hmem, hnfds, hbyte]

theorem Runtime.Interrupting.returning {left : ℕ} (h : s.Interrupting left) :
    s.Returning capacity left := by
  obtain ⟨hlive, -, hbyte, hsignal⟩ := h.woken
  obtain ⟨readEnd, writeEnd, hreadfd, -, -⟩ := hlive.published
  have hwait : ∀ call, s.main = .selectWait call → call.Woken s.globals readEnd := by
    intro call hcall
    have halert := h.alert
    rw [Runtime.Alert, hcall] at halert
    obtain ⟨hmem, hnfds⟩ := halert.2 readEnd hreadfd
    exact ⟨hmem, hnfds, hbyte⟩
  refine ⟨fun call hcall => ⟨readEnd, hreadfd, hwait call hcall, ?_⟩, fun hpos => ?_, h.ended⟩
  · intro ready hready
    exact (hready.2.2.2.2.1 readEnd hreadfd).1.mpr (hwait call hcall)
  · have hsteps := h.steps
    obtain ⟨g, st, pc, activations⟩ := s
    cases pc with
    | selectCheck call =>
      have hstep : mainStep g st (.selectCheck call) .ok =
          some (g, st, .running (some call.interrupted)) := by
        change g.readfd = some readEnd at hreadfd
        simp only [mainStep, hreadfd]
        rw [if_pos hsignal]
      exact ⟨.ok, _, (fun e he => by cases he), by rw [Runtime.step, hstep]; rfl⟩
    | selectWait call =>
      have hreports := (hwait call rfl).reports hreadfd
      have hstep : mainStep g st (.selectWait call) (.ready (wakeReport readEnd)) =
          some (g, st, .selectRecheck (SelectReturn.clear
            ⟨.ok (wakeReport readEnd).count, wakeReport readEnd⟩ readEnd)) := by
        change g.readfd = some readEnd at hreadfd
        simp only [mainStep, if_pos hreports, hreadfd]
      exact ⟨.ready (wakeReport readEnd), _, (fun e he => by cases he),
        by rw [Runtime.step, hstep]; rfl⟩
    | selectRecheck ret => exact ⟨.ok, _, (fun e he => by cases he), rfl⟩
    | _ =>
      have hzero : (0 : ℕ) = left := hsteps
      omega

/-- As long as the runtime is prepared, a signal that has been set is on its way to the wake pipe
or is there. Once its handler has returned, a call of `iperf3rs_cli_select` is at most two steps of
the main thread from its return with `EINTR`, whatever other handlers do meanwhile, and the `select`
inside it has the pipe to report. No call reports the pipe to its caller. -/
theorem cli_no_lost_wakeup (hcapacity : 0 < capacity) {signal : ℕ}
    (h : Runtime.Reaches capacity (Runtime.start signal []) s) (hprepared : s.main.prepared = true) :
    (s.globals.signal ≠ 0 →
      (∃ a ∈ s.activations, a.pc.waking = true) ∨ 0 < s.globals.buffered) ∧
    ((∃ a ∈ s.activations, a.pc = .returned) → 0 < s.main.selectSteps →
      s.main.selectSteps ≤ 2 ∧ ∀ actions s', s.run capacity actions = some s' →
        actions.countP Action.isMain ≤ s.main.selectSteps →
          s'.Returning capacity (s.main.selectSteps - actions.countP Action.isMain)) ∧
    ∀ ret, s.main = .running (some ret) → ∀ fd, s.globals.readfd = some fd → ret.Hides fd := by
  have halert := h.alert hcapacity
  have hlive := halert.live (MainPc.live_of_prepared hprepared)
  refine ⟨hlive.pending, fun hhandled hselect => ⟨?_, fun actions s' hrun hle => ?_⟩, ?_⟩
  · cases s.main <;> simp [MainPc.selectSteps]
  · have hinterrupting : s.Interrupting s.main.selectSteps :=
      ⟨halert, hprepared, hhandled, rfl, fun hzero => by omega⟩
    exact (hinterrupting.run hcapacity actions hrun hle).returning
  · intro ret hret
    rw [Runtime.Alert, hret] at halert
    exact halert.2

end Steps

/-- A call without a timeout, with nothing in its sets but the pipe. -/
theorem cli_no_lost_wakeup_blocked : ∃ s s' ret, Runtime.run 1 (Runtime.start 0 [])
    (prepareActions ++ [.main (.select ⟨0, ⟨∅, ∅, ∅⟩, none⟩), .main .ok] ++ loadActions 0 ++
      [.handler 0, .handler 0]) = some s ∧
    (∃ a ∈ s.activations, a.pc = .returned) ∧ (∃ call, s.main = .selectWait call) ∧
    s.run 1 [.deliver .term, .main (.ready (wakeReport 3)), .handler 1, .main .ok] = some s' ∧
    s'.main = .running (some ret) ∧ ret.result = .error .eintr := by
  have hrun : Runtime.run 1 (Runtime.start 0 [])
    (prepareActions ++ [.main (.select ⟨0, ⟨∅, ∅, ∅⟩, none⟩), .main .ok] ++ loadActions 0 ++
      [.handler 0, .handler 0]) = some _ := rfl
  have hreturned : ⟨.int, .returned⟩ ∈ [(⟨.int, .returned⟩ : Activation)] := List.mem_cons_self
  obtain ⟨-, hwoken, -⟩ := cli_no_lost_wakeup (by decide) (Runtime.reaches_of_run 1 _ hrun) rfl
  obtain ⟨-, hreturning⟩ := hwoken ⟨_, hreturned, rfl⟩ (by decide)
  have hselect := hreturning
    [.deliver .term, .main (.ready (wakeReport 3)), .handler 1, .main .ok] _ rfl (by decide)
  obtain ⟨ret, hret, heintr⟩ := hselect.returned rfl
  exact ⟨_, _, ret, hrun, ⟨_, hreturned, rfl⟩, ⟨_, rfl⟩, rfl, hret, heintr⟩

end CliRuntime

end Iperf3Rs
