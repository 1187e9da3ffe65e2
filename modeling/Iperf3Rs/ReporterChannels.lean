import Iperf3Rs.Reporter

/-! Who holds which end of the reporter's two channels, and what the receiving party knows once
its channel is empty and disconnected. A party's steps are summed up by their effect on one
channel, and the invariants are derived from the effects. -/

namespace Iperf3Rs

variable {F : Type} [F64 F]

namespace SinkPc

omit [F64 F] in
def result : SinkPc F → Option (Except Error Unit)
  | .returning r | .droppingTx r | .droppingLatest r | .joining r | .done r => some r
  | _ => none

def holdsTx : SinkPc F → Bool
  | .droppingLatest _ | .joining _ | .done _ => false
  | _ => true

def holdsRx : SinkPc F → Bool
  | .droppingTx _ => false
  | pc => pc.holdsTx

def holdsLatest : SinkPc F → Bool
  | .joining _ | .done _ => false
  | _ => true

/-- The loop has ended because the sample channel was empty and disconnected. -/
def drained : SinkPc F → Bool
  | .finalFlush => true
  | pc => match pc.result with
    | some (.ok ()) => true
    | _ => false

end SinkPc

def DeliveryPc.holdsRx : DeliveryPc F → Bool
  | .receiving | .calling (.push _) _ _ => true
  | .calling .delete _ _ | .done => false

@[simp] theorem Reporter.flush_raw (s : Reporter F) : s.flush.raw = s.raw := by
  simp only [Reporter.flush]
  split <;> rfl

@[simp] theorem Reporter.flush_callback (s : Reporter F) : s.flush.callback = s.callback := by
  simp only [Reporter.flush]
  split <;> rfl

@[simp] theorem Reporter.flush_todo (s : Reporter F) : s.flush.todo = s.todo := by
  simp only [Reporter.flush]
  split <;> rfl

@[simp] theorem Reporter.flush_sink (s : Reporter F) : s.flush.sink = s.sink := by
  simp only [Reporter.flush]
  split <;> rfl

@[simp] theorem Reporter.flush_delivery (s : Reporter F) : s.flush.delivery = s.delivery := by
  simp only [Reporter.flush]
  split <;> rfl

@[simp] theorem Reporter.flush_written (s : Reporter F) : s.flush.written = s.written := by
  simp only [Reporter.flush]
  split <;> rfl

@[simp] theorem Reporter.flush_log (s : Reporter F) : s.flush.log = s.log := by
  simp only [Reporter.flush]
  split <;> rfl

theorem Reporter.flush_nil {s : Reporter F} (hw : s.window = []) : s.flush = s := by
  simp only [Reporter.flush, hw, flushedWindow_nil]

theorem Reporter.flush_of_ne_nil {s : Reporter F} (hw : s.window ≠ []) :
    ∃ w : FlushedWindow F, w.samples = s.window ∧
      s.flush = { s with
        events := s.events.offer (.window w.metrics)
        window := []
        flushed := s.flushed ++ [w] } := by
  obtain ⟨w, he, hs⟩ := flushedWindow_of_ne_nil hw
  exact ⟨w, hs, by simp only [Reporter.flush, he]⟩

/-- A step of the sink worker, as the sample channel sees it. -/
inductive RawEffect (s s' : Reporter F) : Prop
  | keep (hraw : s'.raw = s.raw) (hrx : s'.sink.holdsRx = s.sink.holdsRx)
      (hdr : s'.sink.drained = true → s.sink.drained = true)
  | take (metrics : Metrics F) (rest : List (Metrics F)) (hpc : s.sink = .waiting)
      (hb : s.raw.chan.buf = metrics :: rest) (hraw : s'.raw = s.raw.take metrics rest)
      (hpc' : s'.sink = .writing metrics)
  | disconnect (hpc : s.sink = .waiting) (hb : s.raw.chan.buf = [])
      (hs : s.raw.chan.senders = 0) (hraw : s'.raw = s.raw) (hpc' : s'.sink = .finalFlush)
  | release (result : Except Error Unit) (hpc : s.sink = .returning result)
      (hraw : s'.raw = s.raw.dropReceiver) (hpc' : s'.sink = .droppingTx result)

theorem SinkStep.callback_eq {cfg : ReporterConfig} {s s' : Reporter F} (h : SinkStep cfg s s') :
    s'.callback = s.callback ∧ s'.todo = s.todo ∧ s'.delivery = s.delivery ∧ s'.log = s.log := by
  cases h <;> simp

theorem SinkStep.rawEffect {cfg : ReporterConfig} {s s' : Reporter F} (h : SinkStep cfg s s') :
    RawEffect s s' := by
  cases h with
  | receive metrics rest hpc hb => exact .take metrics rest hpc hb rfl rfl
  | disconnect hpc hb hs => exact .disconnect hpc hb hs rfl rfl
  | «return» result hpc => exact .release result hpc rfl rfl
  | enqueue stage hst => exact .keep rfl rfl id
  | _ =>
    refine .keep (by simp) ?_ ?_ <;>
      simp [SinkPc.holdsRx, SinkPc.holdsTx, SinkPc.drained, SinkPc.result, *]

structure RawInv (cfg : ReporterConfig) (samples : List (Metrics F)) (s : Reporter F) : Prop where
  offered : s.raw.offered ++ s.todo = samples
  sound : s.raw.Sound cfg.queue
  quiet : s.callback ≠ .running → s.todo = [] ∧ s.raw.stage = none
  senders : s.raw.chan.senders = if s.callback = .running then 1 else 0
  receivers : s.raw.chan.receivers = (if s.sink.holdsRx then 1 else 0) +
    if cfg.queue = .latest ∧ s.callback ≠ .dropped then 1 else 0
  drained : s.sink.drained = true → s.callback ≠ .running ∧ s.raw.Delivered cfg.queue

theorem RawInv.start (cfg : ReporterConfig) (samples : List (Metrics F)) :
    RawInv cfg samples (.start cfg samples) := by
  refine ⟨rfl, Link.sound_new _, fun h => absurd rfl h, ?_, ?_, fun h => by cases h⟩
  · cases hq : cfg.queue <;> simp [Reporter.start, Link.new, metricsChannel, hq]
  · cases hq : cfg.queue <;>
      simp [Reporter.start, Link.new, metricsChannel, hq, SinkPc.holdsRx, SinkPc.holdsTx]

/-- The spare receiver is held as long as the callback may offer to a freshness queue. -/
theorem RawInv.connected {cfg : ReporterConfig} {samples : List (Metrics F)} {s : Reporter F}
    (h : RawInv cfg samples s) (hpc : s.callback = .running) :
    cfg.queue = .latest → s.raw.chan.receivers ≠ 0 := by
  intro hq
  have hr := h.receivers
  simp only [hq, hpc] at hr
  simp at hr
  omega

theorem RawInv.callback {cfg : ReporterConfig} {samples : List (Metrics F)} {s s' : Reporter F}
    (h : RawInv cfg samples s) (hs : CallbackStep s s') : RawInv cfg samples s' := by
  have hd : s.sink.drained = true → s.callback ≠ .running := fun hd => (h.drained hd).1
  cases hs with
  | emit metrics rest hpc hst htodo =>
    refine ⟨?_, h.sound.offer hst (h.connected hpc) metrics, fun hne => absurd hpc hne, ?_, ?_,
      fun hdr => absurd hpc (hd hdr)⟩
    · simpa [Link.offer, htodo] using h.offered
    · simpa using h.senders
    · simpa using h.receivers
  | enqueue stage hst =>
    have hpc : s.callback = .running := by
      by_contra hne
      have hn := (h.quiet hne).2
      rw [hst] at hn
      cases hn
    refine ⟨h.offered, h.sound.advance hst (h.connected hpc), fun hne => absurd hpc hne, ?_, ?_,
      fun hdr => absurd hpc (hd hdr)⟩
    · simpa using h.senders
    · simpa using h.receivers
  | unregister hpc hst htodo =>
    refine ⟨h.offered, h.sound.dropSender, fun _ => ⟨htodo, hst⟩, ?_, ?_,
      fun hdr => absurd hpc (hd hdr)⟩
    · have hsend := h.senders
      simp only [hpc, if_true] at hsend
      simp [Link.dropSender, Chan.dropSender, hsend]
    · simpa [Link.dropSender, Chan.dropSender, hpc] using h.receivers
  | dropLatest hpc =>
    have hq := h.quiet (by simp [hpc])
    have hl := h.sound.latest
    have hr := h.receivers
    have hsend := h.senders
    simp only [hpc] at hr hsend
    by_cases hc : cfg.queue = .latest
    · simp only [hc, decide_true] at hl
      simp only [hl, if_true]
      refine ⟨h.offered, h.sound.dropReceiver, fun _ => hq, ?_, ?_, ?_⟩
      · simpa [Link.dropReceiver, Chan.dropReceiver] using hsend
      · simp [Link.dropReceiver, Chan.dropReceiver, hr, hc]
      · intro hdr
        exact ⟨by simp, (h.drained hdr).2.dropReceiver⟩
    · simp only [hc, decide_false] at hl
      simp only [hl, Bool.false_eq_true, if_false]
      refine ⟨h.offered, h.sound, fun _ => hq, ?_, ?_, fun hdr => ⟨by simp, (h.drained hdr).2⟩⟩
      · simpa using hsend
      · simpa [hc] using hr

theorem RawInv.sink {cfg : ReporterConfig} {samples : List (Metrics F)} {s s' : Reporter F}
    (h : RawInv cfg samples s) (hs : SinkStep cfg s s') : RawInv cfg samples s' := by
  obtain ⟨hcb, htodo, -, -⟩ := hs.callback_eq
  cases hs.rawEffect with
  | keep hraw hrx hdr =>
    refine ⟨?_, ?_, ?_, ?_, ?_, ?_⟩
    · simpa only [hraw, htodo] using h.offered
    · simpa only [hraw] using h.sound
    · simpa only [hraw, hcb, htodo] using h.quiet
    · simpa only [hraw, hcb] using h.senders
    · simpa only [hraw, hcb, hrx] using h.receivers
    · simpa only [hraw, hcb] using fun hd => h.drained (hdr hd)
  | take metrics rest hpc hb hraw hpc' =>
    have hr := h.receivers
    refine ⟨?_, hraw ▸ h.sound.take hb, ?_, ?_, ?_, fun hd => ?_⟩
    · simpa only [hraw, Link.take, htodo] using h.offered
    · simpa only [hraw, Link.take, hcb, htodo] using h.quiet
    · simpa only [hraw, Link.take, hcb] using h.senders
    · simpa [hraw, hcb, hpc', hpc, SinkPc.holdsRx, SinkPc.holdsTx, Link.take] using hr
    · simp [hpc', SinkPc.drained, SinkPc.result] at hd
  | disconnect hpc hb hsend hraw hpc' =>
    have hne : s.callback ≠ .running := by
      intro hrun
      have hone := h.senders
      simp [hrun, hsend] at hone
    have hr := h.receivers
    refine ⟨?_, hraw ▸ h.sound, ?_, ?_, ?_, fun _ => ⟨hcb ▸ hne, hraw ▸ ?_⟩⟩
    · simpa only [hraw, htodo] using h.offered
    · simpa only [hraw, hcb, htodo] using h.quiet
    · simpa only [hraw, hcb] using h.senders
    · simpa [hraw, hcb, hpc', hpc, SinkPc.holdsRx, SinkPc.holdsTx] using hr
    · refine h.sound.delivered (h.quiet hne).2 hb ?_
      simp only [hpc, SinkPc.holdsRx, SinkPc.holdsTx, if_true] at hr
      omega
  | release result hpc hraw hpc' =>
    have hr := h.receivers
    refine ⟨?_, hraw ▸ h.sound.dropReceiver, ?_, ?_, ?_, ?_⟩
    · simpa only [hraw, Link.dropReceiver, htodo] using h.offered
    · simpa only [hraw, Link.dropReceiver, hcb, htodo] using h.quiet
    · simpa only [hraw, Link.dropReceiver, Chan.dropReceiver, hcb] using h.senders
    · simp only [hpc, SinkPc.holdsRx, SinkPc.holdsTx, if_true] at hr
      simp [hraw, hcb, hpc', SinkPc.holdsRx, Link.dropReceiver, Chan.dropReceiver, hr]
    · intro hd
      have hd' : s.sink.drained = true := by
        simpa only [hpc, hpc', SinkPc.drained, SinkPc.result] using hd
      have hold := h.drained hd'
      exact ⟨hcb ▸ hold.1, hraw ▸ hold.2.dropReceiver⟩

theorem DeliveryStep.raw_eq {cfg : ReporterConfig} {s s' : Reporter F}
    (h : DeliveryStep cfg s s') :
    s'.raw = s.raw ∧ s'.callback = s.callback ∧ s'.todo = s.todo ∧ s'.sink = s.sink := by
  cases h <;> simp

theorem RawInv.delivery {cfg : ReporterConfig} {samples : List (Metrics F)} {s s' : Reporter F}
    (h : RawInv cfg samples s) (hs : DeliveryStep cfg s s') : RawInv cfg samples s' := by
  obtain ⟨hraw, hcb, htodo, hpc⟩ := hs.raw_eq
  refine ⟨?_, ?_, ?_, ?_, ?_, ?_⟩ <;> simp only [hraw, hcb, htodo, hpc]
  exacts [h.offered, h.sound, h.quiet, h.senders, h.receivers, h.drained]

/-- Without a push interval nothing is ever buffered. -/
structure Reporter.Unbuffered (s : Reporter F) : Prop where
  window : s.window = []
  deadline : s.deadline = none
  flushed : s.flushed = []
  overflowed : s.overflowed = false

theorem Reporter.Unbuffered.step {cfg : ReporterConfig} {s s' : Reporter F} (h : s.Unbuffered)
    (hmode : cfg.pushInterval = none) (hs : ReporterStep cfg s s') : s'.Unbuffered := by
  obtain ⟨hw, hd, hf, ho⟩ := h
  cases hs with
  | callback hs => cases hs <;> exact ⟨hw, hd, hf, ho⟩
  | delivery hs => cases hs <;> exact ⟨hw, hd, hf, ho⟩
  | sink hs => cases hs <;> constructor <;> simp_all [Reporter.flush_nil]

/-- A step of the sink worker, as the event channel sees it. -/
inductive EventsEffect (s s' : Reporter F) : Prop
  | keep (hev : s'.events = s.events) (hst : s.sink = .head → s.events.stage = none)
      (htx : s'.sink.holdsTx = s.sink.holdsTx)
      (hlatest : s'.sink.holdsLatest = s.sink.holdsLatest)
  | advance (stage : Enqueue (MetricEvent F)) (hst : s.events.stage = some stage)
      (hev : s'.events = s.events.advance stage) (hpc : s'.sink = s.sink)
  | offer (event : MetricEvent F) (hst : s.sink = .head → s.events.stage = none)
      (hev : s'.events = s.events.offer event) (htx : s.sink.holdsTx = true)
      (htx' : s'.sink.holdsTx = true) (hpc : s'.sink = .head ∨ s.window ≠ [])
  | dropTx (result : Except Error Unit) (hpc : s.sink = .droppingTx result)
      (hev : s'.events = s.events.dropSender) (hpc' : s'.sink = .droppingLatest result)
  | dropLatest (result : Except Error Unit) (hpc : s.sink = .droppingLatest result)
      (hev : s'.events = if s.events.latest then s.events.dropReceiver else s.events)
      (hpc' : s'.sink = .joining result)

theorem EventsEffect.of_flush {s s' : Reporter F} (hev : s'.events = s.flush.events)
    (hst : s.sink = .head → s.events.stage = none) (htx : s.sink.holdsTx = true)
    (htx' : s'.sink.holdsTx = true) (hlatest : s'.sink.holdsLatest = s.sink.holdsLatest) :
    EventsEffect s s' := by
  by_cases hw : s.window = []
  · rw [Reporter.flush_nil hw] at hev
    exact .keep hev hst (htx'.trans htx.symm) hlatest
  · obtain ⟨w, -, he⟩ := Reporter.flush_of_ne_nil hw
    rw [he] at hev
    exact .offer _ hst hev htx htx' (.inr hw)

theorem SinkStep.eventsEffect {cfg : ReporterConfig} {s s' : Reporter F}
    (h : SinkStep cfg s s') : EventsEffect s s' := by
  cases h with
  | enqueue stage hst => exact .advance stage hst rfl rfl
  | dropTx result hpc => exact .dropTx result hpc rfl rfl
  | dropLatest result hpc => exact .dropLatest result hpc rfl rfl
  | forward metrics hpc hmode =>
    exact .offer _ (by simp [hpc]) rfl (by rw [hpc]; rfl) rfl (.inl rfl)
  | overdue now flushAt hpc hst =>
    exact .of_flush rfl (fun _ => hst) (by rw [hpc]; rfl) (by simp [hpc, SinkPc.holdsTx])
      (by simp)
  | timeout flushAt hpc | split metrics _ _ _ _ hpc | splitFailed metrics _ _ _ _ hpc
  | finalFlush hpc =>
    exact .of_flush rfl (by simp [hpc]) (by rw [hpc]; rfl) rfl (by rw [hpc]; rfl)
  | wait now hpc hst => exact .keep rfl (fun _ => hst) (by rw [hpc]; rfl) (by rw [hpc]; rfl)
  | receive metrics rest hpc | disconnect hpc | write metrics hpc | writeFailed metrics e hpc
  | join metrics interval flushAt hpc | first metrics interval now deadline hpc
  | firstFailed metrics interval now e hpc | «return» result hpc | joinWorker result hpc =>
    exact .keep rfl (by simp [hpc]) (by rw [hpc]; rfl) (by rw [hpc]; rfl)

structure EventsInv (cfg : ReporterConfig) (s : Reporter F) : Prop where
  sound : s.events.Sound cfg.deliveryQueue
  stage : s.events.stage ≠ none → s.sink = .head
  senders : s.events.chan.senders = if s.sink.holdsTx then 1 else 0
  receivers : s.events.chan.receivers = (if s.delivery.holdsRx then 1 else 0) +
    if cfg.deliveryQueue = .latest ∧ s.sink.holdsLatest then 1 else 0
  delivered : s.delivery.holdsRx = false →
    s.sink.holdsTx = false ∧ s.events.Delivered cfg.deliveryQueue

theorem EventsInv.start (cfg : ReporterConfig) (samples : List (Metrics F)) :
    EventsInv cfg (.start cfg samples) := by
  refine ⟨Link.sound_new _, fun h => ?_, ?_, ?_, fun h => by cases h⟩
  · exact absurd rfl h
  · cases hq : cfg.deliveryQueue <;>
      simp [Reporter.start, Link.new, metricsChannel, hq, SinkPc.holdsTx]
  · cases hq : cfg.deliveryQueue <;>
      simp [Reporter.start, Link.new, metricsChannel, hq, DeliveryPc.holdsRx, SinkPc.holdsLatest]

omit [F64 F] in
theorem SinkPc.holdsLatest_of_holdsTx {pc : SinkPc F} (h : pc.holdsTx = true) :
    pc.holdsLatest = true := by
  cases pc <;> first | rfl | cases h

theorem EventsInv.connected {cfg : ReporterConfig} {s : Reporter F} (h : EventsInv cfg s)
    (htx : s.sink.holdsTx = true) :
    cfg.deliveryQueue = .latest → s.events.chan.receivers ≠ 0 := by
  intro hq
  have hr := h.receivers
  have hl := SinkPc.holdsLatest_of_holdsTx htx
  simp only [hq, hl, and_self, if_true] at hr
  omega

theorem EventsInv.stage_eq_none {cfg : ReporterConfig} {s : Reporter F} (h : EventsInv cfg s)
    (hpc : s.sink = .head → s.events.stage = none) : s.events.stage = none := by
  by_contra hne
  exact hne (hpc (h.stage hne))

theorem EventsInv.callback {cfg : ReporterConfig} {s s' : Reporter F} (h : EventsInv cfg s)
    (hs : CallbackStep s s') : EventsInv cfg s' := by
  cases hs <;> exact ⟨h.sound, h.stage, h.senders, h.receivers, h.delivered⟩

theorem EventsInv.sink {cfg : ReporterConfig} {s s' : Reporter F} (h : EventsInv cfg s)
    (hw : cfg.pushInterval = none → s.window = []) (hs : SinkStep cfg s s') :
    EventsInv cfg s' := by
  obtain ⟨-, -, hdel, -⟩ := hs.callback_eq
  cases hs.eventsEffect with
  | keep hev hst htx hlatest =>
    have hn := h.stage_eq_none hst
    refine ⟨hev ▸ h.sound, fun hne => absurd (hev ▸ hn) hne, ?_, ?_, ?_⟩
    · simpa only [hev, htx] using h.senders
    · simpa only [hev, hdel, hlatest] using h.receivers
    · simpa only [hev, hdel, htx] using h.delivered
  | advance stage hst hev hpc =>
    have hhead := h.stage (by simp [hst])
    have htx : s.sink.holdsTx = true := by rw [hhead]; rfl
    refine ⟨hev ▸ h.sound.advance hst (h.connected htx), fun _ => hpc.trans hhead, ?_, ?_, ?_⟩
    · simpa only [hev, hpc, Link.advance_senders] using h.senders
    · simpa only [hev, hpc, hdel, Link.advance_receivers] using h.receivers
    · intro hd
      have hno := (h.delivered (hdel ▸ hd)).1
      rw [htx] at hno
      cases hno
  | offer event hst hev htx htx' hpc =>
    have hn := h.stage_eq_none hst
    have hsound := h.sound.offer hn (h.connected htx) event
    refine ⟨hev ▸ hsound, fun hne => ?_, ?_, ?_, ?_⟩
    · rcases hpc with hpc | hpc
      · exact hpc
      · have hmode : cfg.pushInterval ≠ none := fun hmode => hpc (hw hmode)
        have hq : cfg.deliveryQueue = .all := by
          simp only [ReporterConfig.deliveryQueue, Option.isSome_iff_ne_none.mpr hmode, if_true]
        rw [hq] at hsound
        exact absurd hsound.1.stage (hev ▸ hne)
    · simpa only [hev, htx, htx', Link.offer_senders] using h.senders
    · have hl := SinkPc.holdsLatest_of_holdsTx htx
      have hl' := SinkPc.holdsLatest_of_holdsTx htx'
      simpa only [hev, hdel, hl, hl', Link.offer_receivers] using h.receivers
    · intro hd
      have hno := (h.delivered (hdel ▸ hd)).1
      rw [htx] at hno
      cases hno
  | dropTx result hpc hev hpc' =>
    have hn := h.stage_eq_none (by simp [hpc])
    have hsend := h.senders
    have hr := h.receivers
    refine ⟨hev ▸ h.sound.dropSender, fun hne => absurd (hev ▸ hn) hne, ?_, ?_, ?_⟩
    · simp only [hpc, SinkPc.holdsTx, if_true] at hsend
      simp [hev, hpc', SinkPc.holdsTx, Link.dropSender, Chan.dropSender, hsend]
    · simpa [hev, hdel, hpc, hpc', SinkPc.holdsLatest, Link.dropSender, Chan.dropSender] using hr
    · intro hd
      have hno := (h.delivered (hdel ▸ hd)).1
      simp [hpc, SinkPc.holdsTx] at hno
  | dropLatest result hpc hev hpc' =>
    have hn := h.stage_eq_none (by simp [hpc])
    have hsend := h.senders
    have hr := h.receivers
    have hl := h.sound.latest
    simp only [hpc, SinkPc.holdsTx, SinkPc.holdsLatest, Bool.false_eq_true, if_false,
      and_true] at hsend hr
    by_cases hq : cfg.deliveryQueue = .latest
    · simp only [hl, hq, decide_true, if_true] at hev
      refine ⟨hev ▸ h.sound.dropReceiver, fun hne => absurd (hev ▸ hn) hne, ?_, ?_, ?_⟩
      · simpa [hev, hpc', SinkPc.holdsTx, Link.dropReceiver, Chan.dropReceiver] using hsend
      · simp [hev, hdel, hpc', hq, SinkPc.holdsLatest, Link.dropReceiver, Chan.dropReceiver, hr]
      · intro hd
        have hold := h.delivered (hdel ▸ hd)
        exact ⟨by rw [hpc']; rfl, hev ▸ hold.2.dropReceiver⟩
    · simp only [hl, hq, decide_false, Bool.false_eq_true, if_false] at hev
      refine ⟨hev ▸ h.sound, fun hne => absurd (hev ▸ hn) hne, ?_, ?_, ?_⟩
      · simpa [hev, hpc', SinkPc.holdsTx] using hsend
      · simpa [hev, hdel, hpc', hq, SinkPc.holdsLatest] using hr
      · intro hd
        have hold := h.delivered (hdel ▸ hd)
        exact ⟨by rw [hpc']; rfl, hev ▸ hold.2⟩

theorem EventsInv.delivery {cfg : ReporterConfig} {s s' : Reporter F} (h : EventsInv cfg s)
    (hs : DeliveryStep cfg s s') : EventsInv cfg s' := by
  cases hs with
  | receive event rest hpc hb =>
    have hr := h.receivers
    refine ⟨h.sound.take hb, h.stage, h.senders, ?_, fun hd => by cases hd⟩
    simpa [hpc, DeliveryPc.holdsRx, Link.take] using hr
  | request call _ hpc | retry call _ hpc | respond call _ _ hpc =>
    have hd := h.delivered
    have hr := h.receivers
    refine ⟨h.sound, h.stage, h.senders, ?_, ?_⟩ <;> rw [hpc] at *
    · cases call <;> exact hr
    · cases call <;> exact hd
  | finish hpc hb hsend =>
    have htx : s.sink.holdsTx = false := by
      cases htx : s.sink.holdsTx with
      | false => rfl
      | true =>
        have hone := h.senders
        simp [htx, hsend] at hone
    have hn := h.stage_eq_none fun hhead => by
      simp [hhead, SinkPc.holdsTx] at htx
    have hr := h.receivers
    simp only [hpc, DeliveryPc.holdsRx, if_true] at hr
    have hdone : (if cfg.deleteOnFinish then DeliveryPc.calling (F := F) .delete 0 false
        else .done).holdsRx = false := by
      split <;> rfl
    refine ⟨h.sound.dropReceiver, fun hne => absurd hn hne, h.senders, ?_, fun _ => ⟨htx, ?_⟩⟩
    · simp [hdone, Link.dropReceiver, Chan.dropReceiver, hr]
    · exact (h.sound.delivered hn hb (by omega)).dropReceiver

end Iperf3Rs
