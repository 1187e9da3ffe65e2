import Iperf3Rs.WindowPartition

/-! The windowing loop of a metrics stream and that of a Pushgateway run send the same windows.
The second also writes a file, and a write that fails only cuts the windows off. -/

namespace Iperf3Rs

variable {F : Type} [F64 F]

/-- The same state of the loop, but for the calls of `write_interval`. -/
def WindowState.Same (s u : WindowState F) : Prop := u = { s with written := u.written }

theorem Wakeup.Steady.consumer {cfg : WindowConfig} {t : Wakeup} (h : t.Steady cfg) :
    t.consumer = true :=
  h.1

theorem Wakeup.Steady.deadline {cfg : WindowConfig} {t : Wakeup} (h : t.Steady cfg) :
    ∃ deadline, checkedDeadline cfg.limit t.rearm cfg.interval = .ok deadline := by
  have hok := h.2
  cases he : checkedDeadline cfg.limit t.rearm cfg.interval with
  | ok deadline => exact ⟨deadline, rfl⟩
  | error e =>
    rw [he] at hok
    cases hok

theorem WindowState.Same.flush {s u : WindowState F} (h : s.Same u) (consumer : Bool) :
    (s.flush consumer).Same (u.flush consumer) := by
  obtain ⟨rx, window, deadline, sent, written⟩ := u
  cases h
  rfl

theorem iterations_same {cfg : WindowConfig} {t : Wakeup} (ht : t.Steady cfg)
    (hwrite : ∀ written : List (Metrics F), cfg.writeOutcome written = .ok ())
    {s u : WindowState F} (h : s.Same u) :
    Flow.Rel WindowState.Same (forwardWindowEventsIteration cfg t s)
      (pushWindowMetricsIteration cfg t u) := by
  obtain ⟨rx, window, deadline, sent, written⟩ := s
  obtain ⟨rx', window', deadline', sent', written'⟩ := u
  cases h
  obtain ⟨next, hnext⟩ := ht.deadline
  unfold forwardWindowEventsIteration pushWindowMetricsIteration
  simp only [flushWindowEvent_eq, flushWindowMetrics_eq, writeMetricsFile_eq, hwrite,
    ht.consumer, Bool.true_or, hnext]
  cases deadline with
  | none =>
    cases rx with
    | nil => exact .stop rfl
    | cons metrics rx => exact .next rfl
  | some flushAt =>
    by_cases hnow : flushAt ≤ t.now
    · simp only [hnow, if_true]
      exact .next rfl
    · simp only [hnow, if_false]
      cases htimed : t.timedOut with
      | true => exact .next rfl
      | false =>
        cases rx with
        | nil => exact .stop rfl
        | cons metrics rx =>
          simp only [recvTimeout, Bool.false_eq_true, if_false]
          cases hc : windowContextChanges window metrics with
          | true =>
            simp only [if_true]
            exact .next rfl
          | false =>
            simp only [Bool.false_eq_true, if_false]
            exact .next rfl

/-- The same run with a file that takes every write. -/
def WindowConfig.withoutFailures (cfg : WindowConfig) : WindowConfig :=
  { cfg with fileWrite := fun _ => .ok () }

omit [F64 F] in
theorem withoutFailures_writeOutcome (cfg : WindowConfig) (written : List (Metrics F)) :
    cfg.withoutFailures.writeOutcome written = .ok () := by
  unfold WindowConfig.writeOutcome WindowConfig.withoutFailures
  split <;> rfl

/-- What an iteration of `push_window_metrics` does with the file, and what it does without
failures. -/
inductive PushWindowOutcome (cfg : WindowConfig) (s : WindowState F) :
    Flow Error (WindowState F) → Flow Error (WindowState F) → Prop
  | closed :
      PushWindowOutcome cfg s (.next { s.flush true with deadline := none })
        (.next { s.flush true with deadline := none })
  | received (metrics : Metrics F) (s' : WindowState F) (hrx : s.rx = metrics :: s'.rx)
      (hwrite : cfg.fileWrite s.written.length = .ok ())
      (hwritten : s'.written = s.written ++ [metrics])
      (hall : s'.batches.all = s.batches.all ++ [metrics]) :
      PushWindowOutcome cfg s (.next s') (.next s')
  | disconnected (hrx : s.rx = []) : PushWindowOutcome cfg s (.stop s) (.stop s)
  | failed (metrics : Metrics F) (rx : List (Metrics F)) (e : Error)
      (flow : Flow Error (WindowState F)) (hrx : s.rx = metrics :: rx)
      (hwrite : cfg.fileWrite s.written.length = .error e) :
      PushWindowOutcome cfg s (.fail e { s with rx := rx, written := s.written ++ [metrics] }) flow

theorem WindowState.flush_all (s : WindowState F) : (s.flush true).batches.all = s.batches.all := by
  rw [s.flush_batches, Batches.cut_all]

theorem pushWindowMetricsIteration_push {cfg : WindowConfig} {t : Wakeup} (ht : t.Steady cfg)
    (hsink : cfg.fileSink = true) (s : WindowState F) :
    PushWindowOutcome cfg s (pushWindowMetricsIteration cfg t s)
      (pushWindowMetricsIteration cfg.withoutFailures t s) := by
  obtain ⟨next, hnext⟩ := ht.deadline
  have hnext' : checkedDeadline cfg.withoutFailures.limit t.rearm cfg.withoutFailures.interval =
    .ok next := hnext
  have hsink' : cfg.withoutFailures.fileSink = true := hsink
  have houtcome : cfg.writeOutcome s.written = cfg.fileWrite s.written.length := by
    rw [WindowConfig.writeOutcome, if_pos hsink]
  have hall := s.flush_all
  obtain ⟨rx, window, deadline, sent, written⟩ := s
  unfold pushWindowMetricsIteration
  simp only [flushWindowMetrics_eq, writeMetricsFile_eq, withoutFailures_writeOutcome, houtcome,
    ht.consumer, hnext, hnext', hsink, hsink', if_true]
  cases deadline with
  | none =>
    cases rx with
    | nil => exact .disconnected rfl
    | cons metrics rx =>
      cases hwrite : cfg.fileWrite written.length with
      | error e => exact .failed metrics rx e _ rfl hwrite
      | ok =>
        exact .received metrics _ rfl hwrite rfl
          (Batches.push_all ⟨sent.map FlushedWindow.samples, window⟩ metrics)
  | some flushAt =>
    by_cases hnow : flushAt ≤ t.now
    · simp only [hnow, if_true]
      exact .closed
    · simp only [hnow, if_false]
      cases htimed : t.timedOut with
      | true => exact .closed
      | false =>
        cases rx with
        | nil => exact .disconnected rfl
        | cons metrics rx =>
          simp only [recvTimeout, Bool.false_eq_true, if_false]
          cases hwrite : cfg.fileWrite written.length with
          | error e => exact .failed metrics rx e _ rfl hwrite
          | ok =>
            cases hc : windowContextChanges window metrics with
            | true =>
              simp only [hc, if_true]
              refine .received metrics _ rfl hwrite rfl ?_
              refine Eq.trans ?_ (congrArg (· ++ [metrics]) hall)
              exact Batches.push_all
                (WindowState.flush true ⟨rx, window, some flushAt, sent, written⟩).batches metrics
            | false =>
              simp only [hc, Bool.false_eq_true, if_false]
              exact .received metrics _ rfl hwrite rfl
                (Batches.push_all ⟨sent.map FlushedWindow.samples, window⟩ metrics)

theorem WindowState.sent_prefix_flush (s : WindowState F) (consumer : Bool) :
    s.sent <+: (s.flush consumer).sent :=
  List.prefix_append _ _

/-- The windows that are sent are only added to. -/
theorem pushWindowMetrics_sent_prefix {cfg : WindowConfig} {schedule : List Wakeup}
    (hs : ∀ t ∈ schedule, t.Steady cfg) (s : WindowState F) :
    s.sent <+: (pushWindowMetrics cfg schedule s).state.sent := by
  refine runLoop_extends (fun s u => s.sent <+: u.sent) (fun s => List.prefix_rfl)
    (fun _ _ _ => List.IsPrefix.trans) (fun t ht s => ?_) (fun t _ s => ?_) s
  · have houtcome := pushWindowMetricsIteration_outcome cfg t s
    cases hflow : pushWindowMetricsIteration cfg t s with
    | next s' =>
      rw [hflow] at houtcome
      cases houtcome with
      | next hstep =>
        cases hstep with
        | overdue | timeout | split => exact s.sent_prefix_flush _
        | join | first => exact List.prefix_rfl
    | stop s' =>
      rw [hflow] at houtcome
      cases houtcome with
      | disconnected => exact List.prefix_rfl
      | consumerGone _ hc => cases (hs t ht).consumer.symm.trans hc
    | fail e s' =>
      rw [hflow] at houtcome
      cases houtcome with
      | unrepresentable _ _ harm =>
        obtain ⟨next, hnext⟩ := (hs t ht).deadline
        cases hnext.symm.trans harm
      | writeFailed _ metrics rx written _ hrx hw hsame =>
        subst hsame
        exact List.prefix_rfl
  · rw [flushWindowMetrics_eq]
    exact s.sent_prefix_flush _

/-- Up to the failing write, the samples received are those written, and the windows hold them. -/
structure PushInv (samples : List (Metrics F)) (k : ℕ) (s : WindowState F) : Prop where
  received : s.written ++ s.rx = samples
  windows : s.batches.all = s.written
  unfailed : s.written.length ≤ k

theorem PushInv.written_eq {samples : List (Metrics F)} {k : ℕ} {s : WindowState F}
    (h : PushInv samples k s) : s.written <+: samples.take k := by
  rw [List.prefix_take_iff]
  exact ⟨⟨s.rx, h.received⟩, h.unfailed⟩

/-- The samples of the windows sent by then. -/
def WindowState.summarised (s : WindowState F) : List (Metrics F) :=
  (s.sent.map FlushedWindow.samples).flatten

theorem PushInv.summarised {samples : List (Metrics F)} {k : ℕ} {s : WindowState F}
    (h : PushInv samples k s) : s.summarised <+: samples.take k := by
  refine List.IsPrefix.trans ⟨s.window, ?_⟩ h.written_eq
  exact h.windows

theorem PushInv.flush {samples : List (Metrics F)} {k : ℕ} {s : WindowState F}
    (h : PushInv samples k s) : PushInv samples k (s.flush true) :=
  ⟨h.received, s.flush_all.trans h.windows, h.unfailed⟩

theorem PushInv.receive {samples : List (Metrics F)} {k : ℕ} {s s' : WindowState F}
    {metrics : Metrics F} (h : PushInv samples k s) (hrx : s.rx = metrics :: s'.rx)
    (hk : s.written.length ≠ k) (hwritten : s'.written = s.written ++ [metrics])
    (hall : s'.batches.all = s.batches.all ++ [metrics]) : PushInv samples k s' where
  received := by
    rw [hwritten, List.append_assoc, List.singleton_append, ← hrx]
    exact h.received
  windows := by rw [hall, hwritten, h.windows]
  unfailed := by
    have hle := h.unfailed
    rw [hwritten, List.length_append, List.length_singleton]
    omega

theorem pushWindowMetrics_failing {cfg : WindowConfig} (hsink : cfg.fileSink = true) {k : ℕ}
    {e : Error} (hk : cfg.fileWrite k = .error e) (hbefore : ∀ j < k, cfg.fileWrite j = .ok ())
    {samples : List (Metrics F)} {schedule : List Wakeup} (hs : ∀ t ∈ schedule, t.Steady cfg)
    {s : WindowState F} (h : PushInv samples k s) :
    (pushWindowMetrics cfg schedule s).state.sent <+:
        (pushWindowMetrics cfg.withoutFailures schedule s).state.sent ∧
      (pushWindowMetrics cfg schedule s).state.summarised <+: samples.take k ∧
      ∀ result, (pushWindowMetrics cfg schedule s).result = some result → k < samples.length →
        result = .error e := by
  induction schedule generalizing s with
  | nil =>
    refine ⟨List.prefix_rfl, h.summarised, fun result hresult => ?_⟩
    cases hresult
  | cons t ts ih =>
    have ht := hs t List.mem_cons_self
    have hts : ∀ u ∈ ts, u.Steady cfg := fun u hu => hs u (List.mem_cons_of_mem _ hu)
    have houtcome := pushWindowMetricsIteration_push ht hsink s
    have hfree : s.sent <+: (pushWindowMetrics cfg.withoutFailures (t :: ts) s).state.sent := by
      refine pushWindowMetrics_sent_prefix ?_ s
      exact hs
    unfold pushWindowMetrics at hfree ih ⊢
    generalize hflow : pushWindowMetricsIteration cfg t s = flow at houtcome
    generalize hflow' : pushWindowMetricsIteration cfg.withoutFailures t s = flow' at houtcome
    cases houtcome with
    | closed =>
      simp only [runLoop, hflow, hflow']
      exact ih hts ⟨h.flush.received, h.flush.windows, h.flush.unfailed⟩
    | received metrics s' hrx hwrite hwritten hall =>
      have hne : s.written.length ≠ k := by
        rintro rfl
        cases hwrite.symm.trans hk
      simp only [runLoop, hflow, hflow']
      exact ih hts (h.receive hrx hne hwritten hall)
    | disconnected hrx =>
      simp only [runLoop, hflow, hflow', flushWindowMetrics_eq, ht.consumer]
      refine ⟨List.prefix_rfl, h.flush.summarised, fun result _ hlt => ?_⟩
      -- every sample has been written by then, the failing one among them
      have hall := h.received
      have hle := h.unfailed
      rw [hrx, List.append_nil] at hall
      rw [hall] at hle
      omega
    | failed metrics rx e' _ hrx hwrite =>
      simp only [runLoop, hflow]
      refine ⟨hfree, h.summarised, fun result hresult _ => ?_⟩
      have hlast : s.written.length = k := by
        have hle := h.unfailed
        by_contra hne
        cases (hbefore _ (by omega)).symm.trans hwrite
      rw [hlast, hk] at hwrite
      cases hwrite
      exact (Option.some.inj hresult).symm

/-- On the same schedule, both loops send the same windows. If a file write fails, those sent by
then are the first ones of the run without failures, and their samples precede the one that could
not be written. -/
theorem window_loops_agree (cfg : WindowConfig) (samples : List (Metrics F))
    (schedule : List Wakeup) (hs : ∀ t ∈ schedule, t.Steady cfg) :
    ((cfg.fileSink = true → ∀ k, cfg.fileWrite k = .ok ()) →
      (forwardWindowEvents cfg schedule (.start samples)).result =
          (pushWindowMetrics cfg schedule (.start samples)).result ∧
        (forwardWindowEvents cfg schedule (.start samples)).state.sent =
          (pushWindowMetrics cfg schedule (.start samples)).state.sent ∧
        (forwardWindowEvents cfg schedule (.start samples)).state.events =
          (pushWindowMetrics cfg schedule (.start samples)).state.events) ∧
    ∀ k e, cfg.fileSink = true → cfg.fileWrite k = .error e →
      (∀ j < k, cfg.fileWrite j = .ok ()) →
      (pushWindowMetrics cfg schedule (.start samples)).state.sent <+:
          (pushWindowMetrics cfg.withoutFailures schedule (.start samples)).state.sent ∧
        (pushWindowMetrics cfg schedule (.start samples)).state.summarised <+: samples.take k ∧
        ∀ result, (pushWindowMetrics cfg schedule (.start samples)).result = some result →
          k < samples.length → result = .error e := by
  refine ⟨fun hwrite => ?_, fun k e hsink hk hbefore => ?_⟩
  · have hok : ∀ written : List (Metrics F), cfg.writeOutcome written = .ok () := by
      intro written
      unfold WindowConfig.writeOutcome
      split
      · next hf => exact hwrite hf _
      · rfl
    have hfinish : ∀ t ∈ schedule, ∀ s u : WindowState F, s.Same u →
        (flushWindowEvent t s).2.Same (flushWindowMetrics t u) := by
      intro t _ s u h
      rw [flushWindowEvent_eq, flushWindowMetrics_eq]
      exact h.flush _
    have hstart : (WindowState.start samples).Same (.start samples) := rfl
    have hrel := runLoop_rel (fun t ht s u h => iterations_same (hs t ht) hok h) hfinish hstart
    have hsent : (forwardWindowEvents cfg schedule (.start samples)).state.sent =
        (pushWindowMetrics cfg schedule (.start samples)).state.sent :=
      (congrArg WindowState.sent hrel.2).symm
    exact ⟨hrel.1, hsent, congrArg (List.map _) hsent⟩
  · exact pushWindowMetrics_failing hsink hk hbefore hs ⟨rfl, rfl, Nat.zero_le _⟩

/-- The disk is full at the second sample. -/
def fullDiskWindows : WindowConfig :=
  { oneSecondWindows with
    fileWrite := fun k => if k = 1 then .error ⟨.metricsFile, "disk full"⟩ else .ok () }

theorem window_loops_agree_failing :
    (forwardWindowEvents oneSecondWindows overdueSchedule
        (.start [senderSample, receiverSample])).state.events =
      (pushWindowMetrics oneSecondWindows overdueSchedule
        (.start [senderSample, receiverSample])).state.events ∧
    (pushWindowMetrics fullDiskWindows overdueSchedule
      (.start [senderSample, receiverSample])).state.summarised <+: [senderSample] := by
  have hs : ∀ t ∈ overdueSchedule, t.Steady oneSecondWindows := by
    unfold Wakeup.Steady
    decide
  have hagree := window_loops_agree oneSecondWindows [senderSample, receiverSample]
    overdueSchedule hs
  have hfailing := window_loops_agree fullDiskWindows [senderSample, receiverSample] overdueSchedule hs
  exact ⟨(hagree.1 fun _ _ => rfl).2.2, (hfailing.2 1 _ rfl rfl (by decide)).2.1⟩

end Iperf3Rs
