import Iperf3Rs.Batches
import Iperf3Rs.ExactF64
import Iperf3Rs.WindowLoop

/-! Both windowing loops cut the received samples into an ordered partition. What an iteration
can do is said once, by `WindowStep`; the invariant is derived from that for both loops. -/

namespace Iperf3Rs

variable {F : Type} [F64 F]

def WindowState.flush (consumer : Bool) (s : WindowState F) : WindowState F :=
  { s with
    window := []
    sent := s.sent ++ if consumer then (flushedWindow s.window).toList else [] }

theorem flushWindowEvent_eq (t : Wakeup) (s : WindowState F) :
    flushWindowEvent t s = (t.consumer || s.window.isEmpty, s.flush t.consumer) := by
  by_cases hw : s.window = []
  · obtain ⟨rx, window, deadline, sent, written⟩ := s
    subst hw
    simp [flushWindowEvent, WindowState.flush]
  · obtain ⟨w, he, -⟩ := flushedWindow_of_ne_nil hw
    cases hc : t.consumer <;> simp [flushWindowEvent, WindowState.flush, he, hc, hw]

theorem flushWindowMetrics_eq (t : Wakeup) (s : WindowState F) :
    flushWindowMetrics t s = s.flush t.consumer := by
  have h : flushWindowMetrics t s = (flushWindowEvent t s).2 := by
    unfold flushWindowMetrics flushWindowEvent
    split <;> rfl
  rw [h, flushWindowEvent_eq]

/-- The effects of an iteration that goes on, for either loop. -/
inductive WindowStep (cfg : WindowConfig) (t : Wakeup) (s : WindowState F) : WindowState F → Prop
  | overdue (flushAt : Instant) (hd : s.deadline = some flushAt) (hnow : flushAt ≤ t.now) :
      WindowStep cfg t s { s.flush t.consumer with deadline := none }
  | timeout (flushAt : Instant) (hd : s.deadline = some flushAt) (hnow : t.now < flushAt) :
      WindowStep cfg t s { s.flush t.consumer with deadline := none }
  | join (flushAt : Instant) (metrics : Metrics F) (rx written : List (Metrics F))
      (hd : s.deadline = some flushAt) (hnow : t.now < flushAt) (hrx : s.rx = metrics :: rx)
      (hc : windowContextChanges s.window metrics = false) :
      WindowStep cfg t s
        { s with
          rx := rx, window := s.window ++ [metrics], deadline := some flushAt, written := written }
  | split (flushAt deadline : Instant) (metrics : Metrics F) (rx written : List (Metrics F))
      (hd : s.deadline = some flushAt) (hnow : t.now < flushAt) (hrx : s.rx = metrics :: rx)
      (harm : checkedDeadline cfg.limit t.rearm cfg.interval = .ok deadline) :
      WindowStep cfg t s
        { s.flush t.consumer with
          rx := rx, window := [metrics], deadline := some deadline, written := written }
  | first (deadline : Instant) (metrics : Metrics F) (rx written : List (Metrics F))
      (hd : s.deadline = none) (hrx : s.rx = metrics :: rx)
      (harm : checkedDeadline cfg.limit t.rearm cfg.interval = .ok deadline) :
      WindowStep cfg t s
        { s with
          rx := rx, window := s.window ++ [metrics], deadline := some deadline, written := written }

def WindowConfig.writeOutcome (cfg : WindowConfig) (written : List (Metrics F)) :
    Except Error Unit :=
  if cfg.fileSink then cfg.fileWrite written.length else .ok ()

theorem writeMetricsFile_eq (cfg : WindowConfig) (s : WindowState F) (metrics : Metrics F) :
    writeMetricsFile cfg s metrics = (cfg.writeOutcome s.written,
      { s with written := if cfg.fileSink then s.written ++ [metrics] else s.written }) := by
  unfold writeMetricsFile WindowConfig.writeOutcome
  split <;> rfl

inductive WindowOutcome (cfg : WindowConfig) (t : Wakeup) (s : WindowState F) :
    Flow Error (WindowState F) → Prop
  | next {s' : WindowState F} (h : WindowStep cfg t s s') : WindowOutcome cfg t s (.next s')
  | disconnected (hrx : s.rx = []) : WindowOutcome cfg t s (.stop s)
  | consumerGone (s' : WindowState F) (hc : t.consumer = false) : WindowOutcome cfg t s (.stop s')
  | unrepresentable (e : Error) (s' : WindowState F)
      (harm : checkedDeadline cfg.limit t.rearm cfg.interval = .error e) :
      WindowOutcome cfg t s (.fail e s')
  | writeFailed (e : Error) (metrics : Metrics F) (rx written : List (Metrics F))
      (s' : WindowState F) (hrx : s.rx = metrics :: rx)
      (hw : cfg.writeOutcome s.written = .error e)
      (hs : s' = { s with rx := rx, written := written }) :
      WindowOutcome cfg t s (.fail e s')

theorem consumer_eq_false_of_flush {α : Type} {consumer empty : Bool} {x y : α}
    (h : (consumer || empty, x) = (false, y)) : consumer = false := by
  simp only [Prod.mk.injEq, Bool.or_eq_false_iff] at h
  exact h.1.1

theorem forwardWindowEventsIteration_outcome (cfg : WindowConfig) (t : Wakeup)
    (s : WindowState F) : WindowOutcome cfg t s (forwardWindowEventsIteration cfg t s) := by
  unfold forwardWindowEventsIteration
  simp only [flushWindowEvent_eq]
  cases hd : s.deadline with
  | none =>
    cases hrx : s.rx with
    | nil => exact .disconnected hrx
    | cons metrics rx =>
      cases harm : checkedDeadline cfg.limit t.rearm cfg.interval with
      | error e => exact .unrepresentable e _ harm
      | ok deadline => exact .next (.first deadline metrics rx s.written hd hrx harm)
  | some flushAt =>
    by_cases hnow : flushAt ≤ t.now
    · simp only [hnow, if_true]
      split
      · next he => exact .consumerGone _ (consumer_eq_false_of_flush he)
      · next he => exact (Prod.mk.inj he).2 ▸ .next (.overdue flushAt hd hnow)
    · have hlt := Nat.lt_of_not_le hnow
      simp only [hnow, if_false]
      cases ht : t.timedOut with
      | true =>
        simp only [recvTimeout, if_true]
        split
        · next he => exact .consumerGone _ (consumer_eq_false_of_flush he)
        · next he => exact (Prod.mk.inj he).2 ▸ .next (.timeout flushAt hd hlt)
      | false =>
        cases hrx : s.rx with
        | nil => exact .disconnected hrx
        | cons metrics rx =>
          simp only [recvTimeout, Bool.false_eq_true, if_false]
          cases hc : windowContextChanges s.window metrics with
          | false => exact .next (.join flushAt metrics rx s.written hd hlt hrx hc)
          | true =>
            simp only [if_true]
            split
            · next he => exact .consumerGone _ (consumer_eq_false_of_flush he)
            · next he =>
              obtain ⟨-, rfl⟩ := Prod.mk.inj he
              cases harm : checkedDeadline cfg.limit t.rearm cfg.interval with
              | error e => exact .unrepresentable e _ harm
              | ok deadline =>
                exact .next (.split flushAt deadline metrics rx s.written hd hlt hrx harm)

theorem pushWindowMetricsIteration_outcome (cfg : WindowConfig) (t : Wakeup)
    (s : WindowState F) : WindowOutcome cfg t s (pushWindowMetricsIteration cfg t s) := by
  unfold pushWindowMetricsIteration
  simp only [flushWindowMetrics_eq, writeMetricsFile_eq]
  cases hd : s.deadline with
  | none =>
    cases hrx : s.rx with
    | nil => exact .disconnected hrx
    | cons metrics rx =>
      cases hw : cfg.writeOutcome s.written with
      | error e => exact .writeFailed e metrics rx _ _ hrx hw (by rw [hd])
      | ok =>
        cases harm : checkedDeadline cfg.limit t.rearm cfg.interval with
        | error e => exact .unrepresentable e _ harm
        | ok deadline => exact .next (.first deadline metrics rx _ hd hrx harm)
  | some flushAt =>
    by_cases hnow : flushAt ≤ t.now
    · simp only [hnow, if_true]
      exact .next (.overdue flushAt hd hnow)
    · have hlt := Nat.lt_of_not_le hnow
      simp only [hnow, if_false]
      cases ht : t.timedOut with
      | true => exact .next (.timeout flushAt hd hlt)
      | false =>
        cases hrx : s.rx with
        | nil => exact .disconnected hrx
        | cons metrics rx =>
          simp only [recvTimeout, Bool.false_eq_true, if_false]
          cases hw : cfg.writeOutcome s.written with
          | error e => exact .writeFailed e metrics rx _ _ hrx hw (by rw [hd])
          | ok =>
            cases hc : windowContextChanges s.window metrics with
            | false =>
              simp only [hc, Bool.false_eq_true, if_false]
              exact .next (.join flushAt metrics rx _ hd hlt hrx hc)
            | true =>
              simp only [hc, if_true]
              cases harm : checkedDeadline cfg.limit t.rearm cfg.interval with
              | error e => exact .unrepresentable e _ harm
              | ok deadline => exact .next (.split flushAt deadline metrics rx _ hd hlt hrx harm)

def WindowState.batches (s : WindowState F) : Batches (Metrics F) :=
  ⟨s.sent.map FlushedWindow.samples, s.window⟩

theorem WindowState.flush_batches (s : WindowState F) :
    (s.flush true).batches = s.batches.cut := by
  by_cases hw : s.window = []
  · simp [WindowState.batches, WindowState.flush, Batches.cut, hw]
  · obtain ⟨w, he, hs⟩ := flushedWindow_of_ne_nil hw
    simp [WindowState.batches, WindowState.flush, Batches.cut, hw, he, hs]

structure WindowInv (samples : List (Metrics F)) (s : WindowState F) : Prop where
  conserved : s.batches.all ++ s.rx = samples
  uniform : s.batches.Uniform Metrics.context
  idle : s.deadline = none → s.window = []

theorem WindowInv.start (samples : List (Metrics F)) : WindowInv samples (.start samples) := by
  refine ⟨by simp [WindowState.start, WindowState.batches, Batches.all], ⟨?_, ?_, ?_⟩, ?_⟩ <;>
    simp [WindowState.start, WindowState.batches, Batches.Agree]

omit [F64 F] in
theorem context_eq_of_not_changes {window : List (Metrics F)} {metrics : Metrics F}
    (hw : Batches.Agree Metrics.context window)
    (hc : windowContextChanges window metrics = false) :
    ∀ x ∈ window, x.context = metrics.context := by
  intro x hx
  cases window with
  | nil => cases hx
  | cons first rest =>
    have hfirst : sameWindowContext first metrics = true := by
      simpa [windowContextChanges] using hc
    calc x.context = first.context := hw x hx first (by simp)
      _ = metrics.context := (sameWindowContext_iff first metrics).mp hfirst

theorem WindowStep.inv {cfg : WindowConfig} {t : Wakeup} {samples : List (Metrics F)}
    {s s' : WindowState F} (h : WindowStep cfg t s s') (ht : t.consumer = true)
    (hi : WindowInv samples s) : WindowInv samples s' := by
  have hcut : (s.flush t.consumer).batches = s.batches.cut := ht ▸ s.flush_batches
  have hclose : WindowInv samples { s.flush t.consumer with deadline := none } := by
    refine ⟨?_, ?_, fun _ => rfl⟩
    · change (s.flush t.consumer).batches.all ++ s.rx = samples
      rw [hcut, Batches.cut_all, hi.conserved]
    · change (s.flush t.consumer).batches.Uniform _
      exact hcut ▸ hi.uniform.cut
  cases h with
  | overdue => exact hclose
  | timeout => exact hclose
  | join flushAt metrics rx written hd hnow hrx hc =>
    refine ⟨?_, ?_, by simp⟩
    · change (s.batches.push metrics).all ++ rx = samples
      rw [Batches.push_all, List.append_assoc, List.singleton_append, ← hrx, hi.conserved]
    · change (s.batches.push metrics).Uniform _
      exact hi.uniform.push (context_eq_of_not_changes hi.uniform.current_agree hc)
  | split flushAt deadline metrics rx written hd hnow hrx harm =>
    have he : (s.flush t.consumer).batches.push metrics = s.batches.cut.push metrics := by
      rw [hcut]
    refine ⟨?_, ?_, by simp⟩
    · change ((s.flush t.consumer).batches.push metrics).all ++ rx = samples
      rw [he, Batches.push_all, Batches.cut_all, List.append_assoc, List.singleton_append,
        ← hrx, hi.conserved]
    · change ((s.flush t.consumer).batches.push metrics).Uniform _
      exact he ▸ hi.uniform.cut.push (by simp)
  | first deadline metrics rx written hd hrx harm =>
    refine ⟨?_, ?_, by simp⟩
    · change (s.batches.push metrics).all ++ rx = samples
      rw [Batches.push_all, List.append_assoc, List.singleton_append, ← hrx, hi.conserved]
    · change (s.batches.push metrics).Uniform _
      refine hi.uniform.push ?_
      simp [WindowState.batches, hi.idle hd]

/-- The wakeups a loop can still use: one for each sample, one to close its window, and one
more while a window is open. -/
def WindowState.size (s : WindowState F) : ℕ := 2 * s.rx.length + s.deadline.toList.length

theorem WindowStep.size_lt {cfg : WindowConfig} {t : Wakeup} {s s' : WindowState F}
    (h : WindowStep cfg t s s') : s'.size < s.size := by
  cases h with
  | overdue flushAt hd hnow => simp [WindowState.size, WindowState.flush, hd]
  | timeout flushAt hd hnow => simp [WindowState.size, WindowState.flush, hd]
  | join flushAt metrics rx written hd hnow hrx hc => simp [WindowState.size, hd, hrx]
  | split flushAt deadline metrics rx written hd hnow hrx harm => simp [WindowState.size, hd, hrx]
  | first deadline metrics rx written hd hrx harm =>
    simp only [WindowState.size, hd, hrx, List.length_cons, Option.toList_some, Option.toList_none,
      List.length_nil]
    omega

structure WindowsPartition (samples : List (Metrics F)) (result : Except Error Unit)
    (s : WindowState F) : Prop where
  result_eq : result = .ok ()
  drained : s.rx = []
  partition : OrderedPartition Metrics.context samples (s.sent.map FlushedWindow.samples)

/-- The consumer is connected and the deadline the iteration may compute is representable. -/
def Wakeup.Steady (cfg : WindowConfig) (t : Wakeup) : Prop :=
  t.consumer = true ∧ (checkedDeadline cfg.limit t.rearm cfg.interval).isOk = true

theorem WindowInv.finish {t : Wakeup} {samples : List (Metrics F)} {s : WindowState F}
    (hi : WindowInv samples s) (ht : t.consumer = true) (hrx : s.rx = []) :
    WindowsPartition samples (.ok ()) (s.flush t.consumer) := by
  have hb : (s.flush t.consumer).batches = s.batches.cut := ht ▸ s.flush_batches
  have hall : (s.flush t.consumer).batches.all = samples := by
    rw [hb, Batches.cut_all, ← hi.conserved, hrx, List.append_nil]
  refine ⟨rfl, hrx, ?_⟩
  have hu : (s.flush t.consumer).batches.Uniform Metrics.context := hb ▸ hi.uniform.cut
  exact hall ▸ hu.orderedPartition rfl

theorem runLoop_windowsPartition (cfg : WindowConfig)
    {body : Wakeup → WindowState F → Flow Error (WindowState F)}
    {finish : Wakeup → WindowState F → WindowState F}
    (hbody : ∀ t s, WindowOutcome cfg t s (body t s))
    (hfinish : ∀ t s, finish t s = s.flush t.consumer)
    (hwrite : ∀ written : List (Metrics F), cfg.writeOutcome written = .ok ())
    {samples : List (Metrics F)} {schedule : List Wakeup} (hs : ∀ t ∈ schedule, t.Steady cfg)
    {result : Except Error Unit} {s : WindowState F}
    (h : runLoop body finish schedule (.start samples) = .returned result s) :
    WindowsPartition samples result s := by
  have hnext : ∀ t ∈ schedule, ∀ s s', WindowInv samples s → body t s = .next s' →
      WindowInv samples s' := by
    intro t ht s s' hi he
    have hb := hbody t s
    rw [he] at hb
    cases hb with
    | next hstep => exact hstep.inv (hs t ht).1 hi
  obtain ⟨t, ht, s₁, hi, ⟨s₂, he, rfl, rfl⟩ | ⟨e, he, rfl⟩⟩ :=
    runLoop_returned (WindowInv.start samples) hnext h
  · have hb := hbody t s₁
    rw [he] at hb
    cases hb with
    | disconnected hrx => exact hfinish t s₁ ▸ hi.finish (hs t ht).1 hrx
    | consumerGone _ hc => simp [(hs t ht).1] at hc
  · have hb := hbody t s₁
    rw [he] at hb
    cases hb with
    | unrepresentable _ _ harm =>
      have hok := (hs t ht).2
      simp [harm, Except.isOk, Except.toBool] at hok
    | writeFailed _ metrics rx written _ hrx hw => simp [hwrite] at hw

theorem runLoop_window_returns {cfg : WindowConfig}
    {body : Wakeup → WindowState F → Flow Error (WindowState F)}
    (finish : Wakeup → WindowState F → WindowState F)
    (hbody : ∀ t s, WindowOutcome cfg t s (body t s))
    {samples : List (Metrics F)} {schedule : List Wakeup}
    (h : 2 * samples.length < schedule.length) :
    ∃ result s, runLoop body finish schedule (.start samples) = .returned result s := by
  refine runLoop_returns finish WindowState.size ?_ (by simpa [WindowState.size, WindowState.start] using h)
  intro t _ s s' he
  have hb := hbody t s
  rw [he] at hb
  cases hb with
  | next hstep => exact hstep.size_lt

/-- On every schedule, the windows sent by either loop are an ordered partition of the samples
received, each window nonempty and of one context. A schedule with two wakeups for each sample
and one for the disconnect is long enough for both loops to return. -/
theorem window_loops_partition (cfg : WindowConfig) (samples : List (Metrics F))
    (schedule : List Wakeup) (hs : ∀ t ∈ schedule, t.Steady cfg) :
    (∀ result s, forwardWindowEvents cfg schedule (.start samples) = .returned result s →
      WindowsPartition samples result s) ∧
    ((cfg.fileSink = true → ∀ k, cfg.fileWrite k = .ok ()) →
      ∀ result s, pushWindowMetrics cfg schedule (.start samples) = .returned result s →
        WindowsPartition samples result s) ∧
    (2 * samples.length < schedule.length →
      (∃ result s, forwardWindowEvents cfg schedule (.start samples) = .returned result s) ∧
      ∃ result s, pushWindowMetrics cfg schedule (.start samples) = .returned result s) := by
  refine ⟨fun result s h => ?_, fun hw result s h => ?_, fun hlen => ⟨?_, ?_⟩⟩
  · exact runLoop_windowsPartition { cfg with fileSink := false }
      (forwardWindowEventsIteration_outcome _) (fun t s => by rw [flushWindowEvent_eq])
      (fun _ => rfl) hs h
  · refine runLoop_windowsPartition cfg (pushWindowMetricsIteration_outcome cfg)
      flushWindowMetrics_eq (fun written => ?_) hs h
    unfold WindowConfig.writeOutcome
    split
    · next hf => exact hw hf _
    · rfl
  · exact runLoop_window_returns _ (forwardWindowEventsIteration_outcome cfg) hlen
  · exact runLoop_window_returns _ (pushWindowMetricsIteration_outcome cfg) hlen

def oneSecondWindows : WindowConfig where
  limit := 10 ^ 12
  interval := .second
  fileSink := true
  fileWrite _ := .ok ()

def senderSample : Metrics ExactF64 := { Metrics.default with direction := .sender }

def receiverSample : Metrics ExactF64 := { Metrics.default with direction := .receiver }

def overdueSchedule : List Wakeup :=
  [⟨0, false, 5, true⟩, ⟨2 * 10 ^ 9, false, 5, true⟩, ⟨2 * 10 ^ 9, false, 2 * 10 ^ 9, true⟩,
    ⟨2 * 10 ^ 9, false, 2 * 10 ^ 9, true⟩, ⟨2 * 10 ^ 9, false, 2 * 10 ^ 9, true⟩]

theorem window_loops_partition_overdue :
    (∃ result s, forwardWindowEvents oneSecondWindows overdueSchedule
        (.start [senderSample, receiverSample]) = .returned result s ∧
      WindowsPartition [senderSample, receiverSample] result s) ∧
    ∃ result s, pushWindowMetrics oneSecondWindows overdueSchedule
        (.start [senderSample, receiverSample]) = .returned result s ∧
      WindowsPartition [senderSample, receiverSample] result s := by
  have hs : ∀ t ∈ overdueSchedule, t.Steady oneSecondWindows := by
    unfold Wakeup.Steady
    decide
  obtain ⟨hf, hp, hr⟩ := window_loops_partition oneSecondWindows [senderSample, receiverSample]
    overdueSchedule hs
  obtain ⟨⟨result, s, h⟩, ⟨result', s', h'⟩⟩ := hr (by decide)
  exact ⟨⟨result, s, h, hf result s h⟩, ⟨result', s', h', hp (fun _ _ => rfl) result' s' h'⟩⟩

end Iperf3Rs
