import Iperf3Rs.WindowPartition
import Mathlib.Data.List.Induction

/-! The deadline of a windowing loop belongs to the window in its buffer. It is computed when the
first sample of the window arrives, and both are given up together. -/

namespace Iperf3Rs

variable {F : Type} [F64 F]

/-- The iteration on `t` has received the first sample of the window that `s` holds, and `s` has
received the others since. -/
structure Opens (cfg : WindowConfig) (t : Wakeup) (before after s : WindowState F)
    (flushAt : Instant) : Prop where
  armed : checkedDeadline cfg.limit t.rearm cfg.interval = .ok flushAt
  received : ∃ first rest, s.window = first :: rest ∧ before.rx = first :: after.rx ∧
    after.window = [first] ∧ after.rx = rest ++ s.rx
  unsent : s.sent = after.sent

section Heads

variable (cfg : WindowConfig) (iteration : Wakeup → WindowState F → Flow Error (WindowState F))
  (finish : Wakeup → WindowState F → WindowState F) (schedule : List Wakeup)
  (origin s : WindowState F)

/-- At the head behind `schedule`, the deadline is that of the window. -/
structure DeadlineInv : Prop where
  armed_iff : s.deadline.isSome = true ↔ s.window ≠ []
  opened : ∀ flushAt, s.deadline = some flushAt → ∃ past t later before after,
    schedule = past ++ t :: later ∧ runLoop iteration finish past origin = .running before ∧
    iteration t before = .next after ∧ runLoop iteration finish later after = .running s ∧
    Opens cfg t before after s flushAt

/-- And what the iteration from there on can do. A passed deadline closes the window and leaves the
channel alone; without one, only a sample or the disconnect ends the receive. -/
structure WindowHead : Prop extends DeadlineInv cfg iteration finish schedule origin s where
  overdue : ∀ flushAt t, s.deadline = some flushAt → flushAt ≤ t.now →
    (iteration t s).state.rx = s.rx ∧ (iteration t s).state.window = []
  idle : s.deadline = none → ∀ t,
    (∀ t' : Wakeup, t'.rearm = t.rearm → iteration t' s = iteration t s) ∧
    (s.rx = [] ∧ iteration t s = .stop s ∧ finish t s = s ∨
      ∃ metrics, s.rx = metrics :: (iteration t s).state.rx ∧ (iteration t s).state.sent = s.sent)

end Heads

theorem WindowState.flush_of_window_eq_nil (s : WindowState F) (h : s.window = [])
    (consumer : Bool) : s.flush consumer = s := by
  obtain ⟨rx, window, deadline, sent, written⟩ := s
  cases h
  simp [WindowState.flush]

section Invariant

variable {cfg : WindowConfig} {iteration : Wakeup → WindowState F → Flow Error (WindowState F)}
  {finish : Wakeup → WindowState F → WindowState F} {schedule : List Wakeup}
  {origin s s' : WindowState F}

theorem DeadlineInv.start (samples : List (Metrics F)) :
    DeadlineInv cfg iteration finish [] (.start samples) (.start samples) where
  armed_iff := by simp [WindowState.start]
  opened := by simp [WindowState.start]

theorem DeadlineInv.window_eq_nil (h : DeadlineInv cfg iteration finish schedule origin s)
    (hd : s.deadline = none) : s.window = [] := by
  by_contra hne
  have harmed := h.armed_iff.mpr hne
  rw [hd] at harmed
  cases harmed

/-- A window that the last iteration has opened. -/
theorem DeadlineInv.of_opened {t : Wakeup} {metrics : Metrics F} {deadline : Instant}
    (hrun : runLoop iteration finish schedule origin = .running s)
    (hnext : iteration t s = .next s')
    (harm : checkedDeadline cfg.limit t.rearm cfg.interval = .ok deadline)
    (hrx : s.rx = metrics :: s'.rx) (hwindow : s'.window = [metrics])
    (hdeadline : s'.deadline = some deadline) :
    DeadlineInv cfg iteration finish (schedule ++ [t]) origin s' where
  armed_iff := by simp [hwindow, hdeadline]
  opened flushAt hflush := by
    rw [hdeadline] at hflush
    cases hflush
    exact ⟨schedule, t, [], s, s', rfl, hrun, hnext, rfl, harm,
      ⟨metrics, [], hwindow, hrx, hwindow, rfl⟩, rfl⟩

theorem DeadlineInv.of_closed (hwindow : s'.window = []) (hdeadline : s'.deadline = none) :
    DeadlineInv cfg iteration finish schedule origin s' where
  armed_iff := by simp [hwindow, hdeadline]
  opened := by simp [hdeadline]

/-- A sample that joins the window keeps its deadline. -/
theorem DeadlineInv.join (h : DeadlineInv cfg iteration finish schedule origin s) {t : Wakeup}
    {metrics : Metrics F} {flushAt : Instant} (hnext : iteration t s = .next s')
    (hd : s.deadline = some flushAt) (hrx : s.rx = metrics :: s'.rx)
    (hwindow : s'.window = s.window ++ [metrics]) (hdeadline : s'.deadline = some flushAt)
    (hsent : s'.sent = s.sent) :
    DeadlineInv cfg iteration finish (schedule ++ [t]) origin s' where
  armed_iff := by simp [hwindow, hdeadline]
  opened flushAt' hflush := by
    rw [hdeadline] at hflush
    cases hflush
    obtain ⟨past, t₀, later, before, after, rfl, hpast, hopen, hlater, hopens⟩ :=
      h.opened flushAt hd
    obtain ⟨first, rest, hheld, hfirst, halone, hrest⟩ := hopens.received
    refine ⟨past, t₀, later ++ [t], before, after, by simp, hpast, hopen, ?_, hopens.armed,
      ⟨first, rest ++ [metrics], ?_, hfirst, halone, ?_⟩, hsent.trans hopens.unsent⟩
    · rw [runLoop_append hlater, runLoop, hnext]
      rfl
    · rw [hwindow, hheld, List.cons_append]
    · rw [hrest, hrx, List.append_assoc, List.singleton_append]

theorem DeadlineInv.step (h : DeadlineInv cfg iteration finish schedule origin s) {t : Wakeup}
    (hrun : runLoop iteration finish schedule origin = .running s)
    (hnext : iteration t s = .next s')
    (hstep : WindowStep cfg t s s') :
    DeadlineInv cfg iteration finish (schedule ++ [t]) origin s' := by
  cases hstep with
  | overdue flushAt hd hnow => exact .of_closed rfl rfl
  | timeout flushAt hd hnow => exact .of_closed rfl rfl
  | join flushAt metrics rx written hd hnow hrx hc => exact h.join hnext hd hrx rfl rfl rfl
  | split flushAt deadline metrics rx written hd hnow hrx harm =>
    exact .of_opened hrun hnext harm hrx rfl rfl
  | first deadline metrics rx written hd hrx harm =>
    refine .of_opened hrun hnext harm hrx ?_ rfl
    rw [h.window_eq_nil hd, List.nil_append]

theorem DeadlineInv.run (hbody : ∀ t s, WindowOutcome cfg t s (iteration t s))
    {samples : List (Metrics F)}
    (h : runLoop iteration finish schedule (.start samples) = .running s) :
    DeadlineInv cfg iteration finish schedule (.start samples) s := by
  induction schedule using List.reverseRecOn generalizing s with
  | nil =>
    cases h
    exact .start samples
  | append_singleton schedule t ih =>
    obtain ⟨s₀, hrun, hnext⟩ := runLoop_concat_running h
    have houtcome := hbody t s₀
    rw [hnext] at houtcome
    cases houtcome with
    | next hstep => exact (ih hrun).step hrun hnext hstep

/-- What the iterations of a loop do with a passed deadline and without one holds at its heads. -/
theorem WindowHead.run (hbody : ∀ t s, WindowOutcome cfg t s (iteration t s))
    (hfinish : ∀ t s, finish t s = s.flush t.consumer)
    (hoverdue : ∀ t s flushAt, s.deadline = some flushAt → flushAt ≤ t.now →
      (iteration t s).state.rx = s.rx ∧ (iteration t s).state.window = [])
    (hclock : ∀ t t' s, s.deadline = none → t'.rearm = t.rearm → iteration t' s = iteration t s)
    (hidle : ∀ t s, s.deadline = none → s.rx = [] ∧ iteration t s = .stop s ∨
      ∃ metrics, s.rx = metrics :: (iteration t s).state.rx ∧ (iteration t s).state.sent = s.sent)
    {samples : List (Metrics F)}
    (h : runLoop iteration finish schedule (.start samples) = .running s) :
    WindowHead cfg iteration finish schedule (.start samples) s := by
  have hinv := DeadlineInv.run hbody h
  refine ⟨hinv, fun flushAt t hd hnow => hoverdue t s flushAt hd hnow, fun hd t => ⟨?_, ?_⟩⟩
  · intro t' ht'
    exact hclock t t' s hd ht'
  · rcases hidle t s hd with ⟨hrx, hstop⟩ | hsample
    · refine .inl ⟨hrx, hstop, ?_⟩
      rw [hfinish, s.flush_of_window_eq_nil (hinv.window_eq_nil hd)]
    · exact .inr hsample

end Invariant

section Iterations

variable (cfg : WindowConfig) {t : Wakeup} {s : WindowState F} {flushAt : Instant}

theorem forwardWindowEventsIteration_overdue (hd : s.deadline = some flushAt)
    (hnow : flushAt ≤ t.now) :
    (forwardWindowEventsIteration cfg t s).state.rx = s.rx ∧
      (forwardWindowEventsIteration cfg t s).state.window = [] := by
  simp only [forwardWindowEventsIteration, hd, hnow, if_true, flushWindowEvent_eq]
  split
  · next he =>
    obtain ⟨-, rfl⟩ := Prod.mk.inj he
    exact ⟨rfl, rfl⟩
  · next he =>
    obtain ⟨-, rfl⟩ := Prod.mk.inj he
    exact ⟨rfl, rfl⟩

theorem pushWindowMetricsIteration_overdue (hd : s.deadline = some flushAt)
    (hnow : flushAt ≤ t.now) :
    (pushWindowMetricsIteration cfg t s).state.rx = s.rx ∧
      (pushWindowMetricsIteration cfg t s).state.window = [] := by
  simp only [pushWindowMetricsIteration, hd, hnow, if_true, flushWindowMetrics_eq]
  exact ⟨rfl, rfl⟩

theorem forwardWindowEventsIteration_idle (hd : s.deadline = none) :
    s.rx = [] ∧ forwardWindowEventsIteration cfg t s = .stop s ∨
      ∃ metrics, s.rx = metrics :: (forwardWindowEventsIteration cfg t s).state.rx ∧
        (forwardWindowEventsIteration cfg t s).state.sent = s.sent := by
  cases hrx : s.rx with
  | nil => exact .inl ⟨rfl, by simp only [forwardWindowEventsIteration, hd, hrx]⟩
  | cons metrics rx =>
    refine .inr ⟨metrics, ?_⟩
    simp only [forwardWindowEventsIteration, hd, hrx]
    cases checkedDeadline cfg.limit t.rearm cfg.interval with
    | error e => exact ⟨rfl, rfl⟩
    | ok deadline => exact ⟨rfl, rfl⟩

theorem pushWindowMetricsIteration_idle (hd : s.deadline = none) :
    s.rx = [] ∧ pushWindowMetricsIteration cfg t s = .stop s ∨
      ∃ metrics, s.rx = metrics :: (pushWindowMetricsIteration cfg t s).state.rx ∧
        (pushWindowMetricsIteration cfg t s).state.sent = s.sent := by
  cases hrx : s.rx with
  | nil => exact .inl ⟨rfl, by simp only [pushWindowMetricsIteration, hd, hrx]⟩
  | cons metrics rx =>
    refine .inr ⟨metrics, ?_⟩
    simp only [pushWindowMetricsIteration, hd, hrx, writeMetricsFile_eq]
    cases cfg.writeOutcome s.written with
    | error e => exact ⟨rfl, rfl⟩
    | ok =>
      cases checkedDeadline cfg.limit t.rearm cfg.interval with
      | error e => exact ⟨rfl, rfl⟩
      | ok deadline => exact ⟨rfl, rfl⟩

end Iterations

/-- In every run of either loop, at every head of it. -/
theorem window_deadline_armed (cfg : WindowConfig) (samples : List (Metrics F))
    (schedule : List Wakeup) (s : WindowState F) :
    (forwardWindowEvents cfg schedule (.start samples) = .running s →
      WindowHead cfg (forwardWindowEventsIteration cfg) (fun t s => (flushWindowEvent t s).2)
        schedule (.start samples) s) ∧
    (pushWindowMetrics cfg schedule (.start samples) = .running s →
      WindowHead cfg (pushWindowMetricsIteration cfg) flushWindowMetrics schedule
        (.start samples) s) := by
  refine ⟨WindowHead.run (forwardWindowEventsIteration_outcome cfg) ?_ ?_ ?_ ?_,
    WindowHead.run (pushWindowMetricsIteration_outcome cfg) flushWindowMetrics_eq ?_ ?_ ?_⟩
  · intro t s
    rw [flushWindowEvent_eq]
  · exact fun t s flushAt hd hnow => forwardWindowEventsIteration_overdue cfg hd hnow
  · intro t t' s hd ht
    simp only [forwardWindowEventsIteration, hd, ht]
  · exact fun t s hd => forwardWindowEventsIteration_idle cfg hd
  · exact fun t s flushAt hd hnow => pushWindowMetricsIteration_overdue cfg hd hnow
  · intro t t' s hd ht
    simp only [pushWindowMetricsIteration, hd, ht]
  · exact fun t s hd => pushWindowMetricsIteration_idle cfg hd

/-- A second sample of another context closes the window of the first and arms the deadline
anew. -/
def contextSchedule : List Wakeup := [⟨0, false, 5, true⟩, ⟨7, false, 9, true⟩]

theorem window_deadline_armed_context :
    (∃ s, forwardWindowEvents oneSecondWindows contextSchedule
        (.start [senderSample, receiverSample]) = .running s ∧
      s.deadline = some (10 ^ 9 + 9) ∧
      WindowHead oneSecondWindows (forwardWindowEventsIteration oneSecondWindows)
        (fun t s => (flushWindowEvent t s).2) contextSchedule
        (.start [senderSample, receiverSample]) s) ∧
    ∃ s, pushWindowMetrics oneSecondWindows contextSchedule
        (.start [senderSample, receiverSample]) = .running s ∧
      s.deadline = some (10 ^ 9 + 9) ∧
      WindowHead oneSecondWindows (pushWindowMetricsIteration oneSecondWindows)
        flushWindowMetrics contextSchedule (.start [senderSample, receiverSample]) s :=
  ⟨⟨_, rfl, rfl, (window_deadline_armed oneSecondWindows _ contextSchedule _).1 rfl⟩,
    ⟨_, rfl, rfl, (window_deadline_armed oneSecondWindows _ contextSchedule _).2 rfl⟩⟩

end Iperf3Rs
