import Iperf3Rs.MetricsQueue
import Mathlib.Data.List.Range
import Mathlib.Logic.Relation

/-! The freshness queue in use: one producer calls `enqueue_latest` and holds the spare receiver,
one consumer receives until it goes away. Every channel operation is a step. The values carry
the number in which they are produced. -/

namespace Iperf3Rs

variable {α : Type*}

def TrySend.sent : TrySend α → Bool
  | .ok => true
  | .full _ | .disconnected _ => false

def TryRecv.value : TryRecv α → Option α
  | .ok value => some value
  | .empty | .disconnected => none

/-- What a call of `enqueue_latest` has done so far: its channel operations, the value it has
taken out of the queue, and whether its own value has been accepted. -/
structure EnqueueCall (α : Type*) where
  metrics : ℕ × α
  operations : ℕ
  evicted : Option (ℕ × α)
  enqueued : Bool

structure Freshness (α : Type*) where
  link : Link (ℕ × α)
  connected : Bool
  current : Option (EnqueueCall α)
  returned : List (EnqueueCall α)

/-- The call has put its value into the queue, and has taken at most an older one out. -/
def EnqueueCall.Done (call : EnqueueCall α) : Prop :=
  call.enqueued = true ∧ call.operations ≤ 3 ∧
    ∀ v, call.evicted = some v → v.1 < call.metrics.1

namespace Freshness

def start : Freshness α := ⟨.new .latest, true, none, []⟩

/-- The call has returned if nothing is left to do. -/
def record (s : Freshness α) (link : Link (ℕ × α)) (call : EnqueueCall α) : Freshness α :=
  match link.stage with
  | none => { s with link := link, current := none, returned := s.returned ++ [call] }
  | some _ => { s with link := link, current := some call }

def offer (s : Freshness α) (value : α) : Freshness α :=
  let metrics := (s.link.offered.length, value)
  s.record (s.link.offer metrics) ⟨metrics, 1, none, (s.link.chan.trySend metrics).1.sent⟩

def advance (s : Freshness α) (call : EnqueueCall α) (stage : Enqueue (ℕ × α)) : Freshness α :=
  s.record (s.link.advance stage) <|
    match stage with
    | .evict _ => { call with
        operations := call.operations + 1
        evicted := if s.link.latest then s.link.chan.tryRecv.1.value else none }
    | .retry metrics => { call with
        operations := call.operations + 1
        enqueued := (s.link.chan.trySend metrics).1.sent }

inductive Step (s : Freshness α) : Freshness α → Prop
  | offer (value : α) (hst : s.link.stage = none) : Step s (s.offer value)
  | advance (stage : Enqueue (ℕ × α)) (call : EnqueueCall α) (hst : s.link.stage = some stage)
      (hcall : s.current = some call) : Step s (s.advance call stage)
  | receive (metrics : ℕ × α) (rest : List (ℕ × α)) (hconnected : s.connected = true)
      (hb : s.link.chan.buf = metrics :: rest) :
      Step s { s with link := s.link.take metrics rest }
  | disconnect (hconnected : s.connected = true) :
      Step s { s with link := s.link.dropReceiver, connected := false }

abbrev Reachable (s : Freshness α) : Prop := Relation.ReflTransGen Step start s

/-- What the call in progress has done. -/
def CurrentFacts (stage : Option (Enqueue (ℕ × α))) (current : Option (EnqueueCall α)) : Prop :=
  match stage, current with
  | none, none => True
  | some (.evict metrics), some call => call = ⟨metrics, 1, none, false⟩
  | some (.retry metrics), some call => call.metrics = metrics ∧ call.operations = 2 ∧
      call.enqueued = false ∧ ∀ v, call.evicted = some v → v.1 < metrics.1
  | _, _ => False

structure Inv (s : Freshness α) : Prop where
  fresh : s.link.Fresh
  receivers : s.link.chan.receivers = if s.connected then 2 else 1
  numbered : s.link.offered.map Prod.fst = List.range s.link.offered.length
  current : CurrentFacts s.link.stage s.current
  returned : ∀ call ∈ s.returned, call.Done
  accounted : ∀ v ∈ s.link.offered, v ∈ s.link.surviving ∨
    ∃ call ∈ s.returned ++ s.current.toList, call.evicted = some v

variable {s s' : Freshness α}

theorem Inv.connected (h : s.Inv) : s.link.chan.receivers ≠ 0 := by
  rw [h.receivers]
  split <;> decide

/-- What survives is in the order of production. -/
theorem Inv.increasing (h : s.Inv) : (s.link.surviving.map Prod.fst).Pairwise (· < ·) := by
  have hsub := h.fresh.sublist.map Prod.fst
  rw [h.numbered] at hsub
  exact List.pairwise_lt_range.sublist hsub

theorem Inv.start : (start : Freshness α).Inv where
  fresh := Link.fresh_new
  receivers := rfl
  numbered := rfl
  current := trivial
  returned _ hcall := absurd hcall List.not_mem_nil
  accounted _ hv := absurd hv List.not_mem_nil

theorem numbered_append {offered : List (ℕ × α)}
    (h : offered.map Prod.fst = List.range offered.length) (value : α) :
    (offered ++ [(offered.length, value)]).map Prod.fst =
      List.range (offered ++ [(offered.length, value)]).length := by
  rw [List.map_append, h, List.length_append, List.length_singleton, List.range_succ]
  rfl

/-- The first send: an empty queue takes the value, a full one does not. -/
theorem offer_cases {l : Link (ℕ × α)} (h : l.Fresh) (hr : l.chan.receivers ≠ 0)
    (metrics : ℕ × α) :
    (l.chan.buf = [] ∧ (l.chan.trySend metrics).1.sent = true ∧
      l.offer metrics = { l with
        chan := { l.chan with buf := [metrics] }
        stage := none
        offered := l.offered ++ [metrics] }) ∨
    (l.chan.buf ≠ [] ∧ (l.chan.trySend metrics).1.sent = false ∧
      l.offer metrics = { l with
        stage := some (.evict metrics)
        offered := l.offered ++ [metrics] }) := by
  cases hb : l.chan.buf with
  | nil =>
    have hs := Chan.trySend_nil h.capacity hr hb metrics
    refine .inl ⟨rfl, by rw [hs]; rfl, ?_⟩
    simp only [Link.offer, enqueueStart, hs]
  | cons x rest =>
    have hs : l.chan.trySend metrics = (.full metrics, l.chan) := by
      simp [Chan.trySend, Chan.isFull, h.capacity, hr, hb]
    refine .inr ⟨by simp, by rw [hs]; rfl, ?_⟩
    simp only [Link.offer, enqueueStart, hs]

theorem Inv.current_eq_none (h : s.Inv) (hst : s.link.stage = none) : s.current = none := by
  have hcurrent := h.current
  rw [hst] at hcurrent
  cases hc : s.current with
  | none => rfl
  | some call =>
    rw [hc] at hcurrent
    cases hcurrent

/-- The state after a producer's step that ends its call. -/
theorem Inv.of_return (h : s.Inv) {link : Link (ℕ × α)} {call : EnqueueCall α}
    (hst : link.stage = none) (hfresh : link.Fresh)
    (hreceivers : link.chan.receivers = s.link.chan.receivers)
    (hnumbered : link.offered.map Prod.fst = List.range link.offered.length) (hcall : call.Done)
    (haccounted : ∀ v ∈ link.offered, v ∈ link.surviving ∨
      (∃ c ∈ s.returned, c.evicted = some v) ∨ call.evicted = some v) :
    (s.record link call).Inv := by
  simp only [record, hst]
  refine ⟨hfresh, hreceivers.trans h.receivers, hnumbered, ?_, fun c hc => ?_, fun v hv => ?_⟩
  · simp only [hst]
    trivial
  · rcases List.mem_append.mp hc with hc | hc
    · exact h.returned c hc
    · rwa [List.mem_singleton.mp hc]
  · rcases haccounted v hv with hv | ⟨c, hc, hv⟩ | hv
    · exact .inl hv
    · exact .inr ⟨c, by simp [hc], hv⟩
    · exact .inr ⟨call, by simp, hv⟩

/-- The state after a producer's step within its call. -/
theorem Inv.of_go_on (h : s.Inv) {link : Link (ℕ × α)} {call : EnqueueCall α}
    {stage : Enqueue (ℕ × α)} (hst : link.stage = some stage) (hfresh : link.Fresh)
    (hreceivers : link.chan.receivers = s.link.chan.receivers)
    (hnumbered : link.offered.map Prod.fst = List.range link.offered.length)
    (hcall : CurrentFacts (some stage) (some call))
    (haccounted : ∀ v ∈ link.offered, v ∈ link.surviving ∨
      (∃ c ∈ s.returned, c.evicted = some v) ∨ call.evicted = some v) :
    (s.record link call).Inv := by
  simp only [record, hst]
  refine ⟨hfresh, hreceivers.trans h.receivers, hnumbered, ?_, h.returned, fun v hv => ?_⟩
  · simp only [hst]
    exact hcall
  · rcases haccounted v hv with hv | ⟨c, hc, hv⟩ | hv
    · exact .inl hv
    · exact .inr ⟨c, by simp [hc], hv⟩
    · exact .inr ⟨call, by simp, hv⟩

theorem Inv.offer (h : s.Inv) (hst : s.link.stage = none) (value : α) : (s.offer value).Inv := by
  have hfresh := h.fresh.offer hst h.connected (s.link.offered.length, value)
  have hnumbered := numbered_append h.numbered value
  have hold : ∀ v ∈ s.link.offered, v ∈ s.link.taken ++ s.link.chan.buf ∨
      ∃ call ∈ s.returned, call.evicted = some v := by
    intro v hv
    have hv := h.accounted v hv
    simpa [Link.surviving, Link.pending, hst, h.current_eq_none hst] using hv
  rw [Freshness.offer]
  generalize (s.link.offered.length, value) = metrics at hfresh hnumbered ⊢
  rcases offer_cases h.fresh h.connected metrics with ⟨hb, hsent, hoffer⟩ | ⟨hb, hsent, hoffer⟩
  · simp only [hoffer, hsent] at hfresh ⊢
    refine h.of_return rfl hfresh rfl hnumbered ⟨rfl, by simp, fun _ hv => by cases hv⟩ fun v hv => ?_
    rcases List.mem_append.mp hv with hv | hv
    · rw [hb, List.append_nil] at hold
      refine (hold v hv).imp (fun hv => ?_) .inl
      simp [Link.surviving, hv]
    · refine .inl ?_
      simp [Link.surviving, List.mem_singleton.mp hv]
  · simp only [hoffer, hsent] at hfresh ⊢
    refine h.of_go_on rfl hfresh rfl hnumbered rfl fun v hv => ?_
    rcases List.mem_append.mp hv with hv | hv
    · refine (hold v hv).imp (fun hv => ?_) .inl
      exact List.mem_append_left _ hv
    · refine .inl ?_
      simp [Link.surviving, Link.pending, Enqueue.metrics, List.mem_singleton.mp hv]

/-- What is taken out of the queue is older than the value of the call. -/
theorem Inv.evict (h : s.Inv) {metrics : ℕ × α} {call : EnqueueCall α}
    (hst : s.link.stage = some (.evict metrics)) (hcall : s.current = some call) :
    (s.advance call (.evict metrics)).Inv := by
  have hfresh := h.fresh.advance hst h.connected
  have hcurrent : call = ⟨metrics, 1, none, false⟩ := by
    have hcurrent := h.current
    rwa [hst, hcall] at hcurrent
  have hsurv : s.link.surviving = s.link.taken ++ s.link.chan.buf ++ [metrics] := by
    simp [Link.surviving, Link.pending, hst, Enqueue.metrics]
  have hincreasing := h.increasing
  rw [hsurv, List.map_append, List.map_append] at hincreasing
  have htail : s.link.chan.buf.tail = [] := by
    have hbound := h.fresh.bound
    rw [← List.length_eq_zero_iff, List.length_tail]
    omega
  have hvalue : s.link.chan.tryRecv.1.value = s.link.chan.buf.head? := by
    cases hb : s.link.chan.buf with
    | nil =>
      simp only [Chan.tryRecv, hb]
      split <;> rfl
    | cons x rest => simp only [Chan.tryRecv, hb, TryRecv.value, List.head?_cons]
  have hlink : (s.link.advance (.evict metrics)).surviving = s.link.taken ++ [metrics] := by
    simp [Link.surviving, Link.pending, Link.advance, enqueueStep, h.fresh.latest, htail,
      Enqueue.metrics]
  have holder : ∀ v, s.link.chan.buf.head? = some v → v.1 < metrics.1 := by
    intro v hv
    have hlt := (List.pairwise_append.mp hincreasing).2.2 v.1
      (List.mem_append_right _ (List.mem_map_of_mem (List.mem_of_head? hv))) metrics.1
    exact hlt (by simp)
  simp only [Freshness.advance, h.fresh.latest, if_true, hvalue, hcurrent]
  refine h.of_go_on rfl hfresh (Link.advance_receivers _ _) h.numbered ⟨rfl, rfl, rfl, holder⟩
    fun v hv => ?_
  have hv := h.accounted v hv
  rw [hsurv, hcall, hcurrent] at hv
  rw [hlink]
  have hb : ∀ v ∈ s.link.chan.buf, s.link.chan.buf.head? = some v := by
    intro v hv
    cases hbuf : s.link.chan.buf with
    | nil => simp [hbuf] at hv
    | cons x rest =>
      simp only [hbuf, List.tail_cons] at htail
      simpa [hbuf, htail, eq_comm] using hv
  rcases hv with hv | ⟨c, hc, hv⟩
  · rcases List.mem_append.mp hv with hv | hv
    · rcases List.mem_append.mp hv with hv | hv
      · exact .inl (List.mem_append_left _ hv)
      · exact .inr (.inr (hb v hv))
    · exact .inl (List.mem_append_right _ hv)
  · rcases List.mem_append.mp hc with hc | hc
    · exact .inr (.inl ⟨c, hc, hv⟩)
    · cases List.mem_singleton.mp hc
      cases hv

/-- The second send finds the queue empty. -/
theorem Inv.retry (h : s.Inv) {metrics : ℕ × α} {call : EnqueueCall α}
    (hst : s.link.stage = some (.retry metrics)) (hcall : s.current = some call) :
    (s.advance call (.retry metrics)).Inv := by
  have hfresh := h.fresh.advance hst h.connected
  have hb := h.fresh.retry metrics hst
  have hs := Chan.trySend_nil h.fresh.capacity h.connected hb metrics
  obtain ⟨hmetrics, hoperations, -, holder⟩ : call.metrics = metrics ∧ call.operations = 2 ∧
      call.enqueued = false ∧ ∀ v, call.evicted = some v → v.1 < metrics.1 := by
    have hcurrent := h.current
    rwa [hst, hcall] at hcurrent
  have hsame : (s.link.advance (.retry metrics)).surviving = s.link.surviving := by
    simp [Link.surviving, Link.pending, Link.advance, enqueueStep, hs, hst, hb, Enqueue.metrics]
  simp only [Freshness.advance, hs, TrySend.sent]
  refine h.of_return rfl hfresh (Link.advance_receivers _ _) h.numbered
    ⟨rfl, by simp only [hoperations]; decide, fun v hv => hmetrics ▸ holder v hv⟩ fun v hv => ?_
  rw [hsame]
  refine (h.accounted v hv).imp id ?_
  rintro ⟨c, hc, hv⟩
  rw [hcall] at hc
  rcases List.mem_append.mp hc with hc | hc
  · exact .inl ⟨c, hc, hv⟩
  · cases List.mem_singleton.mp hc
    exact .inr hv

theorem Inv.step (h : s.Inv) (hs : Step s s') : s'.Inv := by
  cases hs with
  | offer value hst => exact h.offer hst value
  | advance stage call hst hcall =>
    cases stage with
    | evict metrics => exact h.evict hst hcall
    | retry metrics => exact h.retry hst hcall
  | receive metrics rest hconnected hb =>
    have hsame : (s.link.take metrics rest).surviving = s.link.surviving := by
      simp [Link.surviving, Link.pending, Link.take, hb]
    refine ⟨h.fresh.take hb, h.receivers, h.numbered, h.current, h.returned, fun v hv => ?_⟩
    rw [hsame]
    exact h.accounted v hv
  | disconnect hconnected =>
    refine ⟨h.fresh.dropReceiver, ?_, h.numbered, h.current, h.returned, h.accounted⟩
    simp [Link.dropReceiver, Chan.dropReceiver, h.receivers, hconnected]

theorem Reachable.inv (h : s.Reachable) : s.Inv := by
  induction h with
  | refl => exact Inv.start
  | tail _ hstep ih => exact ih.step hstep

theorem Inv.in_progress (h : s.Inv) {stage : Enqueue (ℕ × α)} (hst : s.link.stage = some stage) :
    ∃ call, s.current = some call ∧ call.operations < 3 ∧ ∀ v, call.evicted = some v →
      v.1 < call.metrics.1 ∧ stage = .retry call.metrics := by
  have hcurrent := h.current
  rw [hst] at hcurrent
  cases hc : s.current with
  | none =>
    rw [hc] at hcurrent
    cases stage <;> cases hcurrent
  | some call =>
    rw [hc] at hcurrent
    cases stage with
    | evict metrics =>
      cases hcurrent
      exact ⟨_, rfl, by simp, nofun⟩
    | retry metrics =>
      obtain ⟨rfl, hoperations, -, holder⟩ := hcurrent
      exact ⟨call, rfl, by omega, fun v hv => ⟨holder v hv, rfl⟩⟩

/-- Whatever the consumer does, a call of `enqueue_latest` takes at most three operations and can
always go on; the newest value is in the queue or received when it returns; values are received in
the order of production, each once; and one that is lost was taken out by a call that has put a
newer one in, or is about to. -/
theorem enqueue_latest_fresh (h : s.Reachable) :
    (∀ stage, s.link.stage = some stage → ∃ call, s.current = some call ∧
      Step s (s.advance call stage) ∧ call.operations < 3) ∧
    (∀ call ∈ s.returned, call.enqueued = true ∧ call.operations ≤ 3) ∧
    (s.link.stage = none → ∀ v, s.link.offered.getLast? = some v →
      v ∈ s.link.chan.buf ∨ v ∈ s.link.taken) ∧
    (s.link.taken.Sublist s.link.offered ∧ (s.link.taken.map Prod.fst).Pairwise (· < ·)) ∧
    ∀ v ∈ s.link.offered, v ∉ s.link.taken → v ∉ s.link.chan.buf → v ∉ s.link.pending →
      ∃ call, call.evicted = some v ∧ v.1 < call.metrics.1 ∧
        (call ∈ s.returned ∧ call.enqueued = true ∨
          s.current = some call ∧ s.link.stage = some (.retry call.metrics)) := by
  have hinv := Reachable.inv h
  refine ⟨fun stage hst => ?_, fun call hcall => ?_, fun hst v hv => ?_, ⟨?_, ?_⟩, ?_⟩
  · obtain ⟨call, hcall, hoperations, -⟩ := hinv.in_progress hst
    exact ⟨call, hcall, .advance stage call hst hcall, hoperations⟩
  · obtain ⟨henqueued, hoperations, -⟩ := hinv.returned call hcall
    exact ⟨henqueued, hoperations⟩
  · rw [← hinv.fresh.newest] at hv
    have hmem := List.mem_of_getLast? hv
    simp only [Link.surviving, Link.pending, hst, Option.map_none, Option.toList_none,
      List.append_nil] at hmem
    exact (List.mem_append.mp hmem).symm
  · exact (List.sublist_append_left _ _).trans
      ((List.sublist_append_left _ _).trans hinv.fresh.sublist)
  · have hincreasing := hinv.increasing
    rw [Link.surviving, List.append_assoc, List.map_append] at hincreasing
    exact (List.pairwise_append.mp hincreasing).1
  · intro v hv htaken hbuf hpending
    rcases hinv.accounted v hv with hv | ⟨call, hcall, hv⟩
    · rcases List.mem_append.mp hv with hv | hv
      · exact absurd hv (by simp [htaken, hbuf])
      · exact absurd hv hpending
    · rcases List.mem_append.mp hcall with hcall | hcall
      · obtain ⟨henqueued, -, holder⟩ := hinv.returned call hcall
        exact ⟨call, hv, holder v hv, .inl ⟨hcall, henqueued⟩⟩
      · have hcurrent : s.current = some call := by simpa using hcall
        cases hst : s.link.stage with
        | none => cases (hinv.current_eq_none hst).symm.trans hcurrent
        | some stage =>
          obtain ⟨call', hcall', -, holder⟩ := hinv.in_progress hst
          cases hcurrent.symm.trans hcall'
          obtain ⟨hlt, rfl⟩ := holder v hv
          exact ⟨call, hv, hlt, .inr ⟨hcurrent, rfl⟩⟩

/-- The consumer drains the queue between the failed send and the replacing receive. -/
theorem enqueue_latest_fresh_drained : ∃ s : Freshness ℕ, s.Reachable ∧
    s.link.taken = [(0, 7)] ∧ ((1, 8) ∈ s.link.chan.buf ∨ (1, 8) ∈ s.link.taken) := by
  have h₁ : Reachable _ := .single (Step.offer 7 (s := start) rfl)
  have h₂ := h₁.tail (Step.offer 8 rfl)
  have h₃ := h₂.tail (Step.receive _ _ rfl rfl)
  have h₄ := h₃.tail (Step.advance _ _ rfl rfl)
  have h := h₄.tail (Step.advance _ _ rfl rfl)
  exact ⟨_, h, rfl, (enqueue_latest_fresh h).2.2.1 rfl (1, 8) rfl⟩

end Freshness

end Iperf3Rs
