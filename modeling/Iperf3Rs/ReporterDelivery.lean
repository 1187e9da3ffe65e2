import Iperf3Rs.ReporterChannels
import Iperf3Rs.WindowPartition

/-! What the Pushgateway is handed. The sink worker turns the samples it has received into
events, the delivery worker turns the events it has received into calls of `push` and
`push_window`, and the group is deleted when no push is left. -/

namespace Iperf3Rs

variable {F : Type} [F64 F]

namespace SinkPc

/-- The sample that has been received but not yet been made part of an event or a window. -/
def inHand : SinkPc F → List (Metrics F)
  | .writing metrics | .processing metrics => [metrics]
  | _ => []

def failed (pc : SinkPc F) : Bool :=
  match pc.result with
  | some (.error _) => true
  | _ => false

end SinkPc

def Reporter.batches (s : Reporter F) : Batches (Metrics F) :=
  ⟨s.flushed.map FlushedWindow.samples, s.window⟩

theorem Reporter.flush_batches (s : Reporter F) : s.flush.batches = s.batches.cut := by
  by_cases hw : s.window = []
  · simp [Reporter.flush_nil hw, Reporter.batches, Batches.cut, hw]
  · obtain ⟨w, hs, he⟩ := Reporter.flush_of_ne_nil hw
    simp [he, Reporter.batches, Batches.cut, hw, hs]

theorem Reporter.flush_offered (s : Reporter F)
    (h : s.events.offered = s.flushed.map fun w => .window w.metrics) :
    s.flush.events.offered = s.flush.flushed.map fun w => .window w.metrics := by
  by_cases hw : s.window = []
  · simpa only [Reporter.flush_nil hw] using h
  · obtain ⟨w, -, he⟩ := Reporter.flush_of_ne_nil hw
    simp only [he, Link.offer, h, List.map_append, List.map_cons, List.map_nil]

@[simp] theorem Reporter.flush_window (s : Reporter F) : s.flush.window = [] := by
  have h := congrArg Batches.current s.flush_batches
  simpa [Reporter.batches] using h

@[simp] theorem Reporter.flush_overflowed (s : Reporter F) :
    s.flush.overflowed = s.overflowed := by
  simp only [Reporter.flush]
  split <;> rfl

/-- A step of the sink worker that moves no sample and completes no window. -/
structure Keeps (s s' : Reporter F) : Prop where
  offered : s'.events.offered = s.events.offered
  taken : s'.raw.taken = s.raw.taken
  batches : s'.batches = s.batches
  flushed : s'.flushed = s.flushed
  deadline : s'.deadline = s.deadline
  inHand : s'.sink.inHand = s.sink.inHand
  result : s'.sink.result = s.sink.result

omit [F64 F] in
theorem SinkPc.failed_eq {pc pc' : SinkPc F} (h : pc'.result = pc.result) :
    pc'.failed = pc.failed := by
  simp only [SinkPc.failed, h]

/-- In immediate mode every sample received becomes an event of its own. -/
def ForwardInv (s : Reporter F) : Prop :=
  s.sink.failed = false →
    s.events.offered ++ s.sink.inHand.map .interval = s.raw.taken.map .interval

theorem ForwardInv.keep {s s' : Reporter F} (h : ForwardInv s) (hk : Keeps s s') :
    ForwardInv s' := by
  intro hf
  rw [SinkPc.failed_eq hk.result] at hf
  simpa only [hk.offered, hk.inHand, hk.taken] using h hf

theorem ForwardInv.sink {cfg : ReporterConfig} {s s' : Reporter F} (h : ForwardInv s)
    (hu : s.Unbuffered) (hmode : cfg.pushInterval = none) (hs : SinkStep cfg s s') :
    ForwardInv s' := by
  cases hs with
  | enqueue stage hst => exact h
  | wait _ hpc | disconnect hpc | write _ hpc | «return» _ hpc | dropTx _ hpc
  | joinWorker _ hpc =>
    exact h.keep ⟨rfl, rfl, rfl, rfl, rfl, by rw [hpc]; rfl, by rw [hpc]; rfl⟩
  | dropLatest result hpc =>
    exact h.keep ⟨by split <;> rfl, rfl, rfl, rfl, rfl, by rw [hpc]; rfl, by rw [hpc]; rfl⟩
  | receive metrics rest hpc hb =>
    intro _
    have hh := h (by rw [hpc]; rfl)
    simp only [hpc, SinkPc.inHand, List.map_nil, List.append_nil] at hh
    simp [SinkPc.inHand, Link.take, hh]
  | forward metrics hpc =>
    intro _
    have hh := h (by rw [hpc]; rfl)
    simpa [hpc, SinkPc.inHand, Link.offer] using hh
  | finalFlush hpc =>
    intro _
    have hh := h (by rw [hpc]; rfl)
    simpa [Reporter.flush_nil hu.window, hpc, SinkPc.inHand] using hh
  | writeFailed metrics e hpc => exact fun hf => by cases hf
  | overdue _ _ _ _ hd | timeout _ _ hd => rw [hu.deadline] at hd; cases hd
  | split _ _ _ _ _ _ hm | join _ _ _ _ hm | first _ _ _ _ _ hm | splitFailed _ _ _ _ _ _ hm
  | firstFailed _ _ _ _ _ hm => rw [hmode] at hm; cases hm

/-- With a push interval the samples received are cut into windows, and every window completed
becomes an event. -/
structure WindowedInv (s : Reporter F) : Prop where
  offered : s.events.offered = s.flushed.map fun w => .window w.metrics
  conserved : s.sink.failed = false → s.batches.all ++ s.sink.inHand = s.raw.taken
  uniform : s.sink.failed = false → s.batches.Uniform Metrics.context
  idle : s.sink.failed = false → s.deadline = none → s.window = []
  flushedOut : s.sink.result = some (.ok ()) → s.window = []

theorem WindowedInv.start (cfg : ReporterConfig) (samples : List (Metrics F)) :
    WindowedInv (.start cfg samples) := by
  refine ⟨?_, fun _ => ?_, fun _ => ⟨?_, ?_, ?_⟩, fun _ _ => rfl, fun _ => rfl⟩ <;>
    simp [Reporter.start, Reporter.batches, Batches.all, Batches.Agree, SinkPc.inHand, Link.new]

theorem WindowedInv.keep {s s' : Reporter F} (h : WindowedInv s) (hk : Keeps s s') :
    WindowedInv s' := by
  have hf := SinkPc.failed_eq hk.result
  have hw : s'.window = s.window := congrArg Batches.current hk.batches
  refine ⟨?_, ?_, ?_, ?_, ?_⟩
  · simpa only [hk.offered, hk.flushed] using h.offered
  · simpa only [hf, hk.batches, hk.inHand, hk.taken] using h.conserved
  · simpa only [hf, hk.batches] using h.uniform
  · simpa only [hf, hw, hk.deadline] using h.idle
  · simpa only [hk.result, hw] using h.flushedOut

/-- A flush closes the open window. -/
theorem WindowedInv.flush {s s' : Reporter F} (h : WindowedInv s)
    (hpc : s.sink.failed = false) (hin : s.sink.inHand = []) (hin' : s'.sink.inHand = [])
    (hraw : s'.raw = s.raw) (hev : s'.events = s.flush.events)
    (hb : s'.batches = s.flush.batches) (hfl : s'.flushed = s.flush.flushed) :
    WindowedInv s' := by
  have hc := h.conserved hpc
  have hw : s'.window = [] := by
    have hcut := congrArg Batches.current (hb.trans s.flush_batches)
    change s'.batches.current = []
    rw [hcut]
    exact Batches.cut_current s.batches
  simp only [hin, List.append_nil] at hc
  refine ⟨?_, fun _ => ?_, fun _ => ?_, fun _ _ => hw, fun _ => hw⟩
  · rw [hev, hfl]
    exact s.flush_offered h.offered
  · rw [hb, s.flush_batches, Batches.cut_all, hin', List.append_nil, hraw, hc]
  · rw [hb, s.flush_batches]
    exact (h.uniform hpc).cut

theorem WindowedInv.sink {cfg : ReporterConfig} {interval : Duration} {s s' : Reporter F}
    (h : WindowedInv s) (hmode : cfg.pushInterval = some interval) (hs : SinkStep cfg s s') :
    WindowedInv s' := by
  cases hs with
  | enqueue stage hst => exact ⟨h.offered, h.conserved, h.uniform, h.idle, h.flushedOut⟩
  | wait _ hpc | disconnect hpc | write _ hpc | «return» _ hpc | dropTx _ hpc
  | joinWorker _ hpc =>
    exact h.keep ⟨rfl, rfl, rfl, rfl, rfl, by rw [hpc]; rfl, by rw [hpc]; rfl⟩
  | dropLatest result hpc =>
    exact h.keep ⟨by split <;> rfl, rfl, rfl, rfl, rfl, by rw [hpc]; rfl, by rw [hpc]; rfl⟩
  | overdue _ _ hpc =>
    exact h.flush (by rw [hpc]; rfl) (by rw [hpc]; rfl) (by simp [hpc, SinkPc.inHand])
      (by simp) rfl rfl rfl
  | timeout _ hpc | finalFlush hpc =>
    exact h.flush (by rw [hpc]; rfl) (by rw [hpc]; rfl) rfl (by simp) rfl rfl rfl
  | receive metrics rest hpc hb =>
    have hc := h.conserved (by rw [hpc]; rfl)
    refine ⟨h.offered, fun _ => ?_, fun _ => h.uniform (by rw [hpc]; rfl),
      fun _ => h.idle (by rw [hpc]; rfl), (fun hr => by cases hr)⟩
    simp only [hpc, SinkPc.inHand, List.append_nil] at hc
    simp only [SinkPc.inHand, Link.take, ← hc]
    rfl
  | forward metrics hpc hm => rw [hmode] at hm; cases hm
  | writeFailed metrics e hpc =>
    exact ⟨h.offered, (by cases ·), (by cases ·), (by cases ·), (by cases ·)⟩
  | firstFailed metrics interval now e hpc =>
    exact ⟨h.offered, (by cases ·), (by cases ·), (by cases ·), (by cases ·)⟩
  | splitFailed metrics interval now flushAt e hpc =>
    exact ⟨s.flush_offered h.offered, (by cases ·), (by cases ·), (by cases ·), (by cases ·)⟩
  | split metrics interval now flushAt deadline hpc hm hd hc harm =>
    have hcons := h.conserved (by rw [hpc]; rfl)
    have hbat : Reporter.batches { s.flush with window := [metrics] } =
        s.batches.cut.push metrics := by
      rw [← s.flush_batches]
      simp [Reporter.batches, Batches.push]
    refine ⟨s.flush_offered h.offered, fun _ => ?_, fun _ => ?_, (fun _ hno => by cases hno),
      (fun hr => by cases hr)⟩
    · change (Reporter.batches { s.flush with window := [metrics] }).all ++ [] = s.flush.raw.taken
      rw [hbat, Batches.push_all, Batches.cut_all, s.flush_raw, List.append_nil, ← hcons, hpc]
      rfl
    · change (Reporter.batches { s.flush with window := [metrics] }).Uniform Metrics.context
      rw [hbat]
      exact (h.uniform (by rw [hpc]; rfl)).cut.push (by simp)
  | join metrics interval flushAt hpc hm hd hc =>
    have hcons := h.conserved (by rw [hpc]; rfl)
    have hu := h.uniform (by rw [hpc]; rfl)
    refine ⟨h.offered, fun _ => ?_, fun _ => hu.push ?_, fun _ hno => ?_, (fun hr => by cases hr)⟩
    · simpa [hpc, SinkPc.inHand, Reporter.batches, Batches.all] using hcons
    · exact context_eq_of_not_changes hu.current_agree hc
    · rw [hd] at hno
      cases hno
  | first metrics interval now deadline hpc hm hd harm =>
    have hcons := h.conserved (by rw [hpc]; rfl)
    have hu := h.uniform (by rw [hpc]; rfl)
    have hw := h.idle (by rw [hpc]; rfl) hd
    refine ⟨h.offered, fun _ => ?_, fun _ => hu.push ?_, (fun _ hno => by cases hno),
      (fun hr => by cases hr)⟩
    · simpa [hpc, SinkPc.inHand, Reporter.batches, Batches.all] using hcons
    · intro x hx
      simp [Reporter.batches, hw] at hx

end Iperf3Rs
