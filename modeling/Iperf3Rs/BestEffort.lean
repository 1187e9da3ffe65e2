import Iperf3Rs.PushDelivery

/-! Best-effort delivery over whole runs. Two freshness queues in series still end with the last
sample, two lossless ones keep every window, and the delete comes after the last push. -/

namespace Iperf3Rs

variable {F : Type} [F64 F]

structure ReporterInv (cfg : ReporterConfig) (samples : List (Metrics F)) (s : Reporter F) :
    Prop where
  raw : RawInv cfg samples s
  events : EventsInv cfg s
  immediate : cfg.pushInterval = none → s.Unbuffered ∧ ForwardInv s
  windowed : cfg.pushInterval ≠ none → WindowedInv s
  log : LogInv cfg s
  joined : ∀ result, s.sink = .done result → s.delivery = .done

theorem ReporterInv.start (cfg : ReporterConfig) (samples : List (Metrics F)) :
    ReporterInv cfg samples (.start cfg samples) := by
  refine ⟨.start cfg samples, .start cfg samples, fun _ => ⟨⟨rfl, rfl, rfl, rfl⟩, fun _ => ?_⟩,
    fun _ => .start cfg samples, .start cfg samples, fun _ hpc => by cases hpc⟩
  simp [Reporter.start, SinkPc.inHand, Link.new]

theorem ReporterInv.callback {cfg : ReporterConfig} {samples : List (Metrics F)}
    {s s' : Reporter F} (h : ReporterInv cfg samples s) (hs : CallbackStep s s') :
    ReporterInv cfg samples s' := by
  have hstep : ReporterStep cfg s s' := .callback hs
  have hraw := h.raw.callback hs
  have hev := h.events.callback hs
  refine ⟨hraw, hev, fun hmode => ?_, fun hmode => ?_, h.log.step hstep, ?_⟩
  · obtain ⟨hu, hf⟩ := h.immediate hmode
    refine ⟨hu.step hmode hstep, ?_⟩
    cases hs with
    | dropLatest hpc =>
      simp only [ForwardInv]
      split <;> exact hf
    | _ => exact hf
  · have hw := h.windowed hmode
    cases hs with
    | dropLatest hpc => exact hw.keep ⟨rfl, by split <;> rfl, rfl, rfl, rfl, rfl, rfl⟩
    | _ => exact hw.keep ⟨rfl, rfl, rfl, rfl, rfl, rfl, rfl⟩
  · cases hs <;> exact h.joined

theorem ReporterInv.sink {cfg : ReporterConfig} {samples : List (Metrics F)}
    {s s' : Reporter F} (h : ReporterInv cfg samples s) (hs : SinkStep cfg s s') :
    ReporterInv cfg samples s' := by
  have hstep : ReporterStep cfg s s' := .sink hs
  have hw : cfg.pushInterval = none → s.window = [] := fun hmode => (h.immediate hmode).1.window
  refine ⟨h.raw.sink hs, h.events.sink hw hs, fun hmode => ?_, fun hmode => ?_, h.log.step hstep, ?_⟩
  · obtain ⟨hu, hf⟩ := h.immediate hmode
    exact ⟨hu.step hmode hstep, hf.sink hu hmode hs⟩
  · obtain ⟨interval, hi⟩ := Option.ne_none_iff_exists'.mp hmode
    exact (h.windowed hmode).sink hi hs
  · have hdel := hs.callback_eq.2.2.1
    have hj := h.joined
    intro result hpc
    rw [hdel]
    cases hs with
    | enqueue stage hst => exact hj result hpc
    | joinWorker _ _ hd => exact hd
    | overdue _ _ hhead =>
      simp only [Reporter.flush_sink, hhead] at hpc
      cases hpc
    | _ => cases hpc

theorem ReporterInv.delivery {cfg : ReporterConfig} {samples : List (Metrics F)}
    {s s' : Reporter F} (h : ReporterInv cfg samples s) (hs : DeliveryStep cfg s s') :
    ReporterInv cfg samples s' := by
  have hstep : ReporterStep cfg s s' := .delivery hs
  refine ⟨h.raw.delivery hs, h.events.delivery hs, fun hmode => ?_, fun hmode => ?_,
    h.log.step hstep, ?_⟩
  · obtain ⟨hu, hf⟩ := h.immediate hmode
    refine ⟨hu.step hmode hstep, ?_⟩
    cases hs <;> exact hf
  · have hw := h.windowed hmode
    cases hs <;> exact hw.keep ⟨rfl, rfl, rfl, rfl, rfl, rfl, rfl⟩
  · intro result hpc
    have hdone := h.joined result (hs.raw_eq.2.2.2 ▸ hpc)
    cases hs with
    | receive _ _ hd | request _ _ hd | retry _ _ hd | respond _ _ _ hd | finish hd =>
      rw [hdone] at hd
      cases hd

theorem Reporter.Reachable.inv {cfg : ReporterConfig} {samples : List (Metrics F)}
    {s : Reporter F} (h : Reporter.Reachable cfg samples s) : ReporterInv cfg samples s := by
  induction h with
  | refl => exact .start cfg samples
  | tail _ hs ih =>
    cases hs with
    | callback hs => exact ih.callback hs
    | sink hs => exact ih.sink hs
    | delivery hs => exact ih.delivery hs

/-- With every file write succeeding, only an unrepresentable deadline makes the worker fail. -/
theorem overflowed_of_failed {cfg : ReporterConfig} {samples : List (Metrics F)}
    {s : Reporter F} (hwrites : ∀ k, cfg.fileWrite k = .ok ())
    (h : Reporter.Reachable cfg samples s) : s.sink.failed = true → s.overflowed = true := by
  have hok : ∀ k, cfg.writeOutcome k = .ok () := by
    intro k
    simp only [ReporterConfig.writeOutcome, hwrites, ite_self]
  induction h with
  | refl => exact fun hf => by cases hf
  | tail _ hs ih =>
    cases hs with
    | callback hs => cases hs <;> exact ih
    | delivery hs => cases hs <;> exact ih
    | sink hs =>
      cases hs with
      | enqueue stage hst => exact ih
      | writeFailed metrics e hpc hw =>
        rw [hok] at hw
        cases hw
      | splitFailed | firstFailed => exact fun _ => rfl
      | «return» _ hpc | dropTx _ hpc | dropLatest _ hpc | joinWorker _ hpc =>
        rw [hpc] at ih
        exact ih
      | overdue _ _ hpc => simp [hpc, SinkPc.failed, SinkPc.result]
      | _ => exact fun hf => by cases hf

/-- What the Pushgateway has been handed by the end of a run. -/
structure PushOutcome (cfg : ReporterConfig) (samples : List (Metrics F)) (s : Reporter F) :
    Prop where
  sublist : cfg.pushInterval = none → s.pushes.Sublist (samples.map .interval)
  newest : cfg.pushInterval = none → s.pushes.getLast? = samples.getLast?.map .interval
  windows : cfg.pushInterval ≠ none → s.pushes = s.flushed.map fun w => .window w.metrics
  partitioned : cfg.pushInterval ≠ none → s.overflowed = false →
    OrderedPartition Metrics.context samples (s.flushed.map FlushedWindow.samples)
  deleted : if cfg.deleteOnFinish then DeletedLast s.log else Settled s.log

omit [F64 F] in
theorem SinkPc.result_of_not_failed {pc : SinkPc F} {result : Except Error Unit}
    (hr : pc.result = some result) (hf : pc.failed = false) : result = .ok () := by
  cases result with
  | ok => rfl
  | error e =>
    simp only [SinkPc.failed, hr] at hf
    cases hf

theorem ReporterInv.received {cfg : ReporterConfig} {samples : List (Metrics F)}
    {s : Reporter F} (h : ReporterInv cfg samples s) (hpc : s.sink = .done (.ok ())) :
    s.raw.taken.Sublist samples ∧ s.raw.taken.getLast? = samples.getLast? ∧
      (cfg.queue = .all → s.raw.taken = samples) := by
  obtain ⟨hrun, hsub, hnew, hall⟩ := h.raw.drained (by rw [hpc]; rfl)
  have hoff := h.raw.offered
  simp only [(h.raw.quiet hrun).1, List.append_nil] at hoff
  rw [hoff] at hsub hnew hall
  exact ⟨hsub, hnew, hall⟩

theorem push_outcome_of_finished (cfg : ReporterConfig) (samples : List (Metrics F))
    (s : Reporter F) (result : Except Error Unit) (hwrites : ∀ k, cfg.fileWrite k = .ok ())
    (hrun : Reporter.Reachable cfg samples s) (hfin : s.Finished result) :
    PushOutcome cfg samples s := by
  have h := hrun.inv
  have hover := overflowed_of_failed hwrites hrun
  have hdone := h.joined result hfin.2
  have hres : s.sink.result = some result := by rw [hfin.2]; rfl
  obtain ⟨-, hesub, henew, heall⟩ := h.events.delivered (by rw [hdone]; rfl)
  have hok : s.overflowed = false → s.sink = .done (.ok ()) := by
    intro ho
    have hf : s.sink.failed = false := by
      cases hf : s.sink.failed with
      | false => rfl
      | true => rw [hover hf] at ho; cases ho
    rw [hfin.2, SinkPc.result_of_not_failed hres hf]
  have himm : cfg.pushInterval = none → s.raw.taken.Sublist samples ∧
      s.raw.taken.getLast? = samples.getLast? ∧
      s.events.offered = s.raw.taken.map .interval := by
    intro hmode
    obtain ⟨hu, hf⟩ := h.immediate hmode
    have hpc := hok hu.overflowed
    obtain ⟨hsub, hnew, -⟩ := h.received hpc
    have hoff := hf (by rw [hpc]; rfl)
    simp only [hpc, SinkPc.inHand, List.map_nil, List.append_nil] at hoff
    exact ⟨hsub, hnew, hoff⟩
  refine ⟨fun hmode => ?_, fun hmode => ?_, fun hmode => ?_, fun hmode ho => ?_, ?_⟩
  · obtain ⟨hsub, -, hoff⟩ := himm hmode
    rw [h.log.pushes]
    exact (hoff ▸ hesub).trans (hsub.map _)
  · obtain ⟨-, hnew, hoff⟩ := himm hmode
    rw [h.log.pushes, henew, hoff, List.getLast?_map, hnew]
  · have hq : cfg.deliveryQueue = .all := by
      simp only [ReporterConfig.deliveryQueue, Option.isSome_iff_ne_none.mpr hmode, if_true]
    rw [h.log.pushes, heall hq, (h.windowed hmode).offered]
  · have hq : cfg.queue = .all := by
      simp only [ReporterConfig.queue, ReporterConfig.deliveryQueue,
        Option.isSome_iff_ne_none.mpr hmode, if_true, ite_self]
    have hpc := hok ho
    have hf : s.sink.failed = false := by rw [hpc]; rfl
    have hcons := (h.windowed hmode).conserved hf
    have hw := (h.windowed hmode).flushedOut (by rw [hpc]; rfl)
    have hpart := ((h.windowed hmode).uniform hf).orderedPartition hw
    simp only [hpc, SinkPc.inHand, List.append_nil] at hcons
    rw [(h.received hpc).2.2 hq] at hcons
    exact hcons ▸ hpart
  · have hph := h.log.phase
    rw [hdone] at hph
    exact hph

def immediateGroup : ReporterConfig where
  pushInterval := none
  fileSink := false
  fileWrite := fun _ => .ok ()
  limit := 10 ^ 12
  retries := 1
  deleteOnFinish := true

/-- The second sample replaces the first one, and the only push is retried before it succeeds. -/
theorem push_outcome_of_replacement : ∃ s : Reporter ExactF64,
    Reporter.Reachable immediateGroup [senderSample, receiverSample] s ∧ s.Finished (.ok ()) ∧
      PushOutcome immediateGroup [senderSample, receiverSample] s := by
  have h : Reporter.Reachable immediateGroup [senderSample, receiverSample] _ := .refl
  have h := h.tail (.callback (.emit senderSample [receiverSample] rfl rfl rfl))
  have h := h.tail (.callback (.emit receiverSample [] rfl rfl rfl))
  have h := h.tail (.callback (.enqueue (.evict receiverSample) rfl))
  have h := h.tail (.callback (.enqueue (.retry receiverSample) rfl))
  have h := h.tail (.sink (.wait 0 rfl rfl (by simp [Reporter.start])))
  have h := h.tail (.sink (.receive receiverSample [] rfl rfl))
  have h := h.tail (.sink (.write receiverSample rfl rfl))
  have h := h.tail (.sink (.forward receiverSample rfl rfl))
  have h := h.tail (.delivery (.receive (.interval receiverSample) [] rfl rfl))
  have h := h.tail (.delivery (.request _ 0 rfl))
  have h := h.tail (.delivery (.retry _ 0 rfl (by decide)))
  have h := h.tail (.callback (.unregister rfl rfl rfl))
  have h := h.tail (.callback (.dropLatest rfl))
  have h := h.tail (.sink (.wait 0 rfl rfl (by simp [Reporter.start])))
  have h := h.tail (.sink (.disconnect rfl rfl rfl))
  have h := h.tail (.sink (.finalFlush rfl))
  have h := h.tail (.sink (.return _ rfl))
  have h := h.tail (.sink (.dropTx _ rfl))
  have h := h.tail (.sink (.dropLatest _ rfl))
  have h := h.tail (.delivery (.request _ 1 rfl))
  have h := h.tail (.delivery (.respond _ 1 .success rfl (by simp)))
  have h := h.tail (.delivery (.finish rfl rfl rfl))
  have h := h.tail (.delivery (.request _ 0 rfl))
  have h := h.tail (.delivery (.respond _ 0 (.failure false) rfl (by simp)))
  have h := h.tail (.sink (.joinWorker _ rfl rfl))
  exact ⟨_, h, ⟨rfl, rfl⟩, push_outcome_of_finished _ _ _ _ (fun _ => rfl) h ⟨rfl, rfl⟩⟩

end Iperf3Rs
