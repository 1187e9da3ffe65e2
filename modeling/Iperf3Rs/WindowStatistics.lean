import Iperf3Rs.ExactF64
import Iperf3Rs.Statistics

/-! What `aggregate_window` computes, over exact numbers: sums of positive parts, and the
statistics of the finite values that were reported. Gauges and counters are families, each with
one definition for all its members. -/

namespace Iperf3Rs

open Statistics

namespace ExactF64

def rational : ExactF64 → Option ℚ
  | finite q => some q
  | nan | inf _ => none

def positivePart : ExactF64 → ℚ
  | finite q => Max.max q 0
  | nan | inf _ => 0

theorem finite_div {a b : ℚ} (hb : b ≠ 0) : finite a / finite b = finite (a / b) := if_neg hb

theorem finiteNonnegative_eq (x : ExactF64) : finiteNonnegative x = finite x.positivePart := by
  cases x with
  | nan | inf => rfl
  | finite q =>
    by_cases hq : 0 < q
    · have hlt : F64.lt (0 : ExactF64) (finite q) = true := decide_eq_true hq
      simp only [finiteNonnegative, F64.isFinite, isFinite, hlt, Bool.and_self, if_true,
        positivePart, max_eq_left hq.le]
    · have hlt : F64.lt (0 : ExactF64) (finite q) = false := decide_eq_false hq
      simp only [finiteNonnegative, hlt, Bool.and_false, Bool.false_eq_true, if_false,
        positivePart, max_eq_right (not_lt.mp hq)]
      rfl

end ExactF64

open ExactF64 (finite rational positivePart)

inductive Gauge where
  | tcpRtt
  | tcpRttvar
  | tcpSndCwnd
  | tcpSndWnd
  | tcpPmtu
  | udpJitter

inductive Counter where
  | tcpRetransmits
  | tcpReorderEvents
  | udpPackets
  | udpLostPackets
  | udpOutOfOrderPackets

section Families

variable {F : Type}

def Gauge.reported : Gauge → Metrics F → Option F
  | .tcpRtt => Metrics.tcpRttSeconds
  | .tcpRttvar => Metrics.tcpRttvarSeconds
  | .tcpSndCwnd => Metrics.tcpSndCwndBytes
  | .tcpSndWnd => Metrics.tcpSndWndBytes
  | .tcpPmtu => Metrics.tcpPmtuBytes
  | .udpJitter => Metrics.udpJitterSeconds

def Gauge.stats : Gauge → WindowMetrics F → WindowGaugeStats F
  | .tcpRtt => WindowMetrics.tcpRttSeconds
  | .tcpRttvar => WindowMetrics.tcpRttvarSeconds
  | .tcpSndCwnd => WindowMetrics.tcpSndCwndBytes
  | .tcpSndWnd => WindowMetrics.tcpSndWndBytes
  | .tcpPmtu => WindowMetrics.tcpPmtuBytes
  | .udpJitter => WindowMetrics.udpJitterSeconds

def Gauge.accumulator : Gauge → WindowAccumulator F → GaugeAccumulator F
  | .tcpRtt => WindowAccumulator.tcpRtt
  | .tcpRttvar => WindowAccumulator.tcpRttvar
  | .tcpSndCwnd => WindowAccumulator.tcpSndCwnd
  | .tcpSndWnd => WindowAccumulator.tcpSndWnd
  | .tcpPmtu => WindowAccumulator.tcpPmtu
  | .udpJitter => WindowAccumulator.udpJitter

def Counter.reported : Counter → Metrics F → Option F
  | .tcpRetransmits => Metrics.tcpRetransmits
  | .tcpReorderEvents => Metrics.tcpReorderEvents
  | .udpPackets => Metrics.udpPackets
  | .udpLostPackets => Metrics.udpLostPackets
  | .udpOutOfOrderPackets => Metrics.udpOutOfOrderPackets

def Counter.total : Counter → WindowMetrics F → Option F
  | .tcpRetransmits => WindowMetrics.tcpRetransmits
  | .tcpReorderEvents => WindowMetrics.tcpReorderEvents
  | .udpPackets => WindowMetrics.udpPackets
  | .udpLostPackets => WindowMetrics.udpLostPackets
  | .udpOutOfOrderPackets => WindowMetrics.udpOutOfOrderPackets

def Counter.accumulator : Counter → WindowAccumulator F → OptionalCounter F
  | .tcpRetransmits => WindowAccumulator.tcpRetransmits
  | .tcpReorderEvents => WindowAccumulator.tcpReorderEvents
  | .udpPackets => WindowAccumulator.udpPackets
  | .udpLostPackets => WindowAccumulator.udpLostPackets
  | .udpOutOfOrderPackets => WindowAccumulator.udpOutOfOrderPackets

end Families

/-- The finite values of a gauge. -/
def Gauge.values (g : Gauge) (samples : List (Metrics ExactF64)) : List ℚ :=
  samples.filterMap fun m => (g.reported m).bind rational

def bandwidthValues (samples : List (Metrics ExactF64)) : List ℚ :=
  samples.filterMap fun m => m.bandwidthBitsPerSecond.rational

/-- What is reported for a counter, valid or not. -/
def Counter.values (c : Counter) (samples : List (Metrics ExactF64)) : List ExactF64 :=
  samples.filterMap c.reported

def total (f : Metrics ExactF64 → ExactF64) (samples : List (Metrics ExactF64)) : ℚ :=
  (samples.map fun m => (f m).positivePart).sum

def gaugeSummary (values : List ℚ) : WindowGaugeStats ExactF64 where
  samples := values.length
  mean := finite (mean values)
  min := finite (least values)
  max := finite (greatest values)

def counterTotal (values : List ExactF64) : Option ExactF64 :=
  if values = [] then none else some (finite (values.map positivePart).sum)

def WindowMetrics.context {F : Type} (w : WindowMetrics F) :
    Role × MetricDirection × ℕ × TransportProtocol :=
  (w.role, w.direction, w.streamCount, w.protocol)

def sampleContext {F : Type} (m : Metrics F) : Role × MetricDirection × ℕ × TransportProtocol :=
  (m.role, m.direction, m.streamCount, m.protocol)

/-- What the summary of a window is. Every field of the summary is determined. -/
structure WindowSpec (samples : List (Metrics ExactF64)) (w : WindowMetrics ExactF64) : Prop where
  context : samples.head?.map sampleContext = some w.context
  timestamp : samples.getLast?.map (·.timestampUnixSeconds) = some w.timestampUnixSeconds
  duration : w.durationSeconds = finite (total (·.intervalDurationSeconds) samples)
  bytes : w.transferredBytes = finite (total (·.transferredBytes) samples)
  bandwidth : w.bandwidthBitsPerSecond =
    { gaugeSummary (bandwidthValues samples) with
      mean :=
        if 0 < total (·.intervalDurationSeconds) samples ∧ bandwidthValues samples ≠ [] then
          finite (total (·.transferredBytes) samples * 8 /
            total (·.intervalDurationSeconds) samples)
        else finite (mean (bandwidthValues samples)) }
  gauge : ∀ g : Gauge, g.stats w = gaugeSummary (g.values samples)
  counter : ∀ c : Counter, c.total w = counterTotal (c.values samples)
  omitted : w.omittedIntervals = finite (samples.countP Metrics.omitted)

/-- The state of a gauge accumulator that has observed the values. -/
def GaugeAccumulator.of (values : List ℚ) : GaugeAccumulator ExactF64 where
  count := values.length
  sum := finite values.sum
  min := finite (least values)
  max := finite (greatest values)

theorem min_finite (a b : ℚ) : Min.min (finite a) (finite b) = finite (min a b) := by
  show ExactF64.min (finite a) (finite b) = finite (min a b)
  by_cases hlt : b < a
  · simp [ExactF64.min, ExactF64.lt, hlt, min_eq_right hlt.le]
  · simp [ExactF64.min, ExactF64.lt, hlt, min_eq_left (not_lt.mp hlt)]

theorem max_finite (a b : ℚ) : Max.max (finite a) (finite b) = finite (max a b) := by
  show ExactF64.max (finite a) (finite b) = finite (max a b)
  by_cases hlt : a < b
  · simp [ExactF64.max, ExactF64.lt, hlt, max_eq_right hlt.le]
  · simp [ExactF64.max, ExactF64.lt, hlt, max_eq_left (not_lt.mp hlt)]

theorem GaugeAccumulator.observe_of (values : List ℚ) (x : ExactF64) :
    (GaugeAccumulator.of values).observe x = .of (values ++ x.rational.toList) := by
  cases x with
  | nan | inf =>
    rw [ExactF64.rational, Option.toList_none, List.append_nil]
    rfl
  | finite q =>
    have hsum : finite values.sum + finite q = finite (values ++ [q]).sum := by
      rw [List.sum_append, List.sum_singleton]
      rfl
    have hlength : values.length + 1 = (values ++ [q]).length := by simp
    have hfinite : F64.isFinite (finite q) = true := rfl
    rw [ExactF64.rational, Option.toList_some]
    simp only [GaugeAccumulator.observe, GaugeAccumulator.of, hfinite, if_true, hsum, hlength,
      List.length_eq_zero_iff, min_finite, max_finite]
    by_cases hv : values = []
    · subst hv
      rfl
    · have hq : [q] ≠ [] := List.cons_ne_nil _ _
      simp only [hv, if_false, least_append hv hq, greatest_append hv hq, least_singleton,
        greatest_singleton]

theorem GaugeAccumulator.foldl_of {α : Type*} (report : α → Option ExactF64) (items : List α)
    (values : List ℚ) :
    items.foldl (fun a i => a.observeOption (report i)) (GaugeAccumulator.of values) =
      .of (values ++ items.filterMap fun i => (report i).bind rational) := by
  induction items generalizing values with
  | nil => rw [List.filterMap_nil, List.append_nil, List.foldl_nil]
  | cons i items ih =>
    have hstep : (GaugeAccumulator.of values).observeOption (report i) =
        .of (values ++ ((report i).bind rational).toList) := by
      cases report i with
      | none => simp [GaugeAccumulator.observeOption]
      | some x => exact observe_of values x
    rw [List.foldl_cons, hstep, ih, List.append_assoc]
    cases h : (report i).bind rational <;> simp [h]

theorem GaugeAccumulator.finish_of (values : List ℚ) :
    (GaugeAccumulator.of values).finish = gaugeSummary values := by
  cases values with
  | nil =>
    have hmean : mean ([] : List ℚ) = 0 := by simp [mean]
    rw [gaugeSummary, hmean]
    rfl
  | cons q values =>
    have hne : ((values.length + 1 : ℕ) : ℚ) ≠ 0 := Nat.cast_ne_zero.mpr (Nat.succ_ne_zero _)
    have hmean : finite (q :: values).sum / ((values.length + 1 : ℕ) : ExactF64) =
        finite (mean (q :: values)) := ExactF64.finite_div hne
    simp only [GaugeAccumulator.finish, GaugeAccumulator.of, List.length_cons,
      Nat.succ_ne_zero, if_false, hmean, gaugeSummary]

theorem GaugeAccumulator.finishWithMean_of (values : List ℚ) (q : ℚ) :
    (GaugeAccumulator.of values).finishWithMean (finite q) =
      { gaugeSummary values with mean := finite (if values = [] then mean values else q) } := by
  rw [GaugeAccumulator.finishWithMean, finish_of]
  by_cases hv : values = []
  · subst hv
    rfl
  · have hcount : 0 < (GaugeAccumulator.of values).count := List.length_pos_iff.mpr hv
    have hfinite : F64.isFinite (finite q) = true := rfl
    rw [if_pos ⟨hcount, hfinite⟩, if_neg hv]

/-- The state of a counter that has observed the values. -/
def OptionalCounter.of (values : List ExactF64) : OptionalCounter ExactF64 where
  observed := !values.isEmpty
  sum := finite (values.map positivePart).sum

theorem OptionalCounter.foldl_of {α : Type*} (report : α → Option ExactF64) (items : List α)
    (values : List ExactF64) :
    items.foldl (fun c i => c.observe (report i)) (OptionalCounter.of values) =
      .of (values ++ items.filterMap report) := by
  induction items generalizing values with
  | nil => rw [List.filterMap_nil, List.append_nil, List.foldl_nil]
  | cons i items ih =>
    cases h : report i with
    | none =>
      rw [List.foldl_cons, h, List.filterMap_cons_none h]
      exact ih values
    | some x =>
      have hstep : (OptionalCounter.of values).observe (some x) = .of (values ++ [x]) := by
        simp only [OptionalCounter.observe, OptionalCounter.of, ExactF64.finiteNonnegative_eq,
          List.map_append, List.sum_append]
        simp
        rfl
      rw [List.foldl_cons, h, hstep, ih, List.filterMap_cons_some h, List.append_assoc]
      rfl

theorem OptionalCounter.finish_of (values : List ExactF64) :
    (OptionalCounter.of values).finish = counterTotal values := by
  cases values <;> rfl

/-- The accumulators after a window, all at once. -/
structure Accumulated (samples : List (Metrics ExactF64)) (a : WindowAccumulator ExactF64) :
    Prop where
  duration : a.durationSeconds = finite (total (·.intervalDurationSeconds) samples)
  bytes : a.transferredBytes = finite (total (·.transferredBytes) samples)
  bandwidth : a.bandwidth = .of (bandwidthValues samples)
  gauge : ∀ g : Gauge, g.accumulator a = .of (g.values samples)
  counter : ∀ c : Counter, c.accumulator a = .of (c.values samples)
  omitted : a.omittedIntervals = finite (samples.countP Metrics.omitted)

theorem foldl_total {α : Type*} (f : α → ExactF64) (items : List α) (q : ℚ) :
    items.foldl (fun x i => x + finiteNonnegative (f i)) (finite q) =
      finite (q + (items.map fun i => (f i).positivePart).sum) := by
  induction items generalizing q with
  | nil => simp
  | cons i items ih =>
    have hstep : finite q + finiteNonnegative (f i) = finite (q + (f i).positivePart) := by
      rw [ExactF64.finiteNonnegative_eq]
      rfl
    rw [List.foldl_cons, hstep, ih, List.map_cons, List.sum_cons, add_assoc]

theorem foldl_omitted (samples : List (Metrics ExactF64)) (n : ℕ) :
    samples.foldl (fun x m => if m.omitted then x + 1 else x) (finite n) =
      finite ((n + samples.countP Metrics.omitted : ℕ) : ℚ) := by
  induction samples generalizing n with
  | nil => rfl
  | cons m samples ih =>
    have hone : finite n + 1 = finite ((n + 1 : ℕ) : ℚ) := by
      rw [Nat.cast_add, Nat.cast_one]
      rfl
    cases hm : m.omitted with
    | false =>
      rw [List.foldl_cons, hm, if_neg Bool.false_ne_true, ih, List.countP_cons_of_neg (by simp [hm])]
    | true =>
      rw [List.foldl_cons, hm, if_pos rfl, hone, ih, List.countP_cons_of_pos hm,
        Nat.add_right_comm, Nat.add_assoc]

/-- A field of the accumulators that is updated from itself and the sample alone. -/
theorem foldl_field {β : Type*} (f : WindowAccumulator ExactF64 → β)
    (step : β → Metrics ExactF64 → β) (h : ∀ a m, step (f a) m = f (a.observe m))
    (samples : List (Metrics ExactF64)) :
    f (samples.foldl WindowAccumulator.observe .default) = samples.foldl step (f .default) :=
  (List.foldl_hom f h).symm

theorem accumulated (samples : List (Metrics ExactF64)) :
    Accumulated samples (samples.foldl WindowAccumulator.observe .default) where
  duration := by
    rw [foldl_field WindowAccumulator.durationSeconds
      (fun x m => x + finiteNonnegative m.intervalDurationSeconds) fun _ _ => rfl]
    refine (foldl_total _ samples 0).trans ?_
    rw [zero_add]
    rfl
  bytes := by
    rw [foldl_field WindowAccumulator.transferredBytes
      (fun x m => x + finiteNonnegative m.transferredBytes) fun _ _ => rfl]
    refine (foldl_total _ samples 0).trans ?_
    rw [zero_add]
    rfl
  bandwidth := by
    rw [foldl_field WindowAccumulator.bandwidth
      (fun x m => x.observeOption (some m.bandwidthBitsPerSecond)) fun _ _ => rfl]
    exact GaugeAccumulator.foldl_of _ samples []
  gauge g := by
    rw [foldl_field g.accumulator (fun x m => x.observeOption (g.reported m))
      fun _ _ => by cases g <;> rfl]
    have hstart : g.accumulator (.default : WindowAccumulator ExactF64) = .of [] := by
      cases g <;> rfl
    rw [hstart]
    exact GaugeAccumulator.foldl_of _ samples []
  counter c := by
    rw [foldl_field c.accumulator (fun x m => x.observe (c.reported m))
      fun _ _ => by cases c <;> rfl]
    have hstart : c.accumulator (.default : WindowAccumulator ExactF64) = .of [] := by
      cases c <;> rfl
    rw [hstart]
    exact OptionalCounter.foldl_of _ samples []
  omitted := by
    rw [foldl_field WindowAccumulator.omittedIntervals
      (fun x m => if m.omitted then x + 1 else x) fun _ _ => rfl]
    refine (foldl_omitted samples 0).trans ?_
    rw [Nat.zero_add]

theorem bandwidthMean_eq (values : List ℚ) (bytes duration : ℚ) :
    (if F64.lt 0 (finite duration) = true then
        finite bytes * ((8 : ℕ) : ExactF64) / finite duration
      else (gaugeSummary values).mean) =
      finite (if 0 < duration then bytes * 8 / duration else mean values) := by
  by_cases hd : 0 < duration
  · have hlt : F64.lt (0 : ExactF64) (finite duration) = true := decide_eq_true hd
    rw [if_pos hlt, if_pos hd]
    exact ExactF64.finite_div hd.ne'
  · have hlt : ¬ F64.lt (0 : ExactF64) (finite duration) = true := by
      intro h
      exact hd (of_decide_eq_true h)
    rw [if_neg hlt, if_neg hd]
    rfl

theorem aggregateWindow_spec {samples : List (Metrics ExactF64)} {w : WindowMetrics ExactF64}
    (h : aggregateWindow samples = some w) : WindowSpec samples w := by
  cases samples with
  | nil => cases h
  | cons first rest =>
    have ha := accumulated (first :: rest)
    simp only [aggregateWindow, Option.some.injEq] at h
    generalize (first :: rest).foldl WindowAccumulator.observe .default = a at ha h
    subst h
    refine ⟨rfl, ?_, ha.duration, ha.bytes, ?_, fun g => ?_, fun c => ?_, ha.omitted⟩
    · obtain ⟨last, hlast⟩ := Option.ne_none_iff_exists'.mp
        (mt List.getLast?_eq_none_iff.mp (List.cons_ne_nil first rest))
      rw [hlast]
      rfl
    · simp only [ha.bandwidth, ha.duration, ha.bytes, GaugeAccumulator.finish_of, bandwidthMean_eq,
        GaugeAccumulator.finishWithMean_of]
      by_cases hv : bandwidthValues (first :: rest) = []
      · simp [hv]
      · simp only [hv, if_false, ne_eq, not_false_eq_true, and_true]
        split <;> rfl
    · have hg := ha.gauge g
      have hfinish := GaugeAccumulator.finish_of (g.values (first :: rest))
      rw [← hg] at hfinish
      cases g <;> exact hfinish
    · have hc := ha.counter c
      have hfinish := OptionalCounter.finish_of (c.values (first :: rest))
      rw [← hc] at hfinish
      cases c <;> exact hfinish

end Iperf3Rs
