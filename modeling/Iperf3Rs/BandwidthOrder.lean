import Iperf3Rs.WindowTotals

/-! The bandwidth statistics of samples that come from the native callback. Their mean is that of
the totals, which also count the bytes of intervals without a duration. -/

namespace Iperf3Rs

open Statistics
open ExactF64 (finite rational positivePart)

def Metrics.bytes (m : Metrics ExactF64) : ℚ := m.transferredBytes.positivePart

def Metrics.duration (m : Metrics ExactF64) : ℚ := m.intervalDurationSeconds.positivePart

/-- The bandwidth the native callback computes. -/
def Metrics.rate (m : Metrics ExactF64) : ℚ :=
  if 0 < m.duration then m.bytes * 8 / m.duration else 0

/-- A sample of the form the native callback emits. -/
structure Metrics.Native (m : Metrics ExactF64) : Prop where
  bytes : m.transferredBytes = finite m.bytes
  duration : m.intervalDurationSeconds = finite m.duration
  bandwidth : m.bandwidthBitsPerSecond = finite m.rate

/-- The bits of the samples without a duration. -/
def idleBits (samples : List (Metrics ExactF64)) : ℚ :=
  (samples.map fun m => if 0 < m.duration then 0 else m.bytes * 8).sum

def peakRate (samples : List (Metrics ExactF64)) : ℚ := greatest (samples.map Metrics.rate)

/-- The bits that would fit below the peak rate. -/
def roomBits (samples : List (Metrics ExactF64)) : ℚ :=
  (samples.map fun m => m.duration * (peakRate samples - m.rate)).sum

/-- No sample has a duration, or the bits of those without one fit below the peak. -/
def Balanced (samples : List (Metrics ExactF64)) : Prop :=
  (∀ m ∈ samples, m.duration = 0) ∨ idleBits samples ≤ roomBits samples

theorem ExactF64.positivePart_nonneg (x : ExactF64) : 0 ≤ x.positivePart := by
  cases x with
  | nan | inf => exact le_rfl
  | finite q => exact le_max_right q 0

variable {samples : List (Metrics ExactF64)}

theorem Metrics.duration_nonneg (m : Metrics ExactF64) : 0 ≤ m.duration :=
  ExactF64.positivePart_nonneg _

theorem Metrics.bytes_nonneg (m : Metrics ExactF64) : 0 ≤ m.bytes :=
  ExactF64.positivePart_nonneg _

/-- The bits of a sample are those of its rate, or it has no duration. -/
theorem Metrics.bits_eq (m : Metrics ExactF64) :
    m.bytes * 8 = m.duration * m.rate + if 0 < m.duration then 0 else m.bytes * 8 := by
  by_cases hd : 0 < m.duration
  · rw [rate, if_pos hd, if_pos hd, add_zero, mul_div_cancel₀ _ hd.ne']
  · rw [rate, if_neg hd, if_neg hd, mul_zero, zero_add]

theorem bandwidthValues_native (h : ∀ m ∈ samples, m.Native) :
    bandwidthValues samples = samples.map Metrics.rate := by
  have hrate : ∀ m ∈ samples, m.bandwidthBitsPerSecond.rational = some m.rate := by
    intro m hm
    rw [(h m hm).bandwidth]
    rfl
  rw [bandwidthValues, List.filterMap_congr hrate]
  exact congrFun List.filterMap_eq_map' samples

def totalDuration (samples : List (Metrics ExactF64)) : ℚ := (samples.map Metrics.duration).sum

def totalBits (samples : List (Metrics ExactF64)) : ℚ := (samples.map fun m => m.bytes * 8).sum

theorem totalBits_eq (samples : List (Metrics ExactF64)) :
    totalBits samples = (samples.map fun m => m.duration * m.rate).sum + idleBits samples := by
  rw [totalBits, idleBits, ← List.sum_map_add]
  exact congrArg List.sum (List.map_congr_left fun m _ => m.bits_eq)

theorem peak_mul_eq (samples : List (Metrics ExactF64)) (peak : ℚ) :
    peak * totalDuration samples =
      (samples.map fun m => m.duration * m.rate).sum +
        (samples.map fun m => m.duration * (peak - m.rate)).sum := by
  rw [totalDuration, ← List.sum_map_mul_left, ← List.sum_map_add]
  refine congrArg List.sum (List.map_congr_left fun m _ => ?_)
  ring

/-- The bits of all samples reach the peak rate at most if the idle bits fit below it. -/
theorem totalBits_le_peak_iff (samples : List (Metrics ExactF64)) :
    totalBits samples ≤ peakRate samples * totalDuration samples ↔
      idleBits samples ≤ roomBits samples := by
  rw [totalBits_eq, peak_mul_eq, roomBits]
  exact add_le_add_iff_left _

theorem least_mul_le_totalBits (hne : samples ≠ []) :
    least (samples.map Metrics.rate) * totalDuration samples ≤ totalBits samples := by
  have hidle : 0 ≤ idleBits samples := by
    refine List.sum_nonneg fun x hx => ?_
    obtain ⟨m, -, rfl⟩ := List.mem_map.mp hx
    split
    · exact le_rfl
    · exact mul_nonneg m.bytes_nonneg (by norm_num)
  have hleast := (least_spec (mt List.map_eq_nil_iff.mp hne :
    samples.map Metrics.rate ≠ [])).2
  have hweighted := mul_sum_le Metrics.duration Metrics.rate
    (fun m _ => m.duration_nonneg) fun m hm => hleast _ (List.mem_map_of_mem hm)
  rw [totalBits_eq]
  exact hweighted.trans (le_add_of_nonneg_right hidle)

theorem not_totalDuration_pos_iff (samples : List (Metrics ExactF64)) :
    ¬ 0 < totalDuration samples ↔ ∀ m ∈ samples, m.duration = 0 := by
  have hnonneg : ∀ x ∈ samples.map Metrics.duration, 0 ≤ x := by
    intro x hx
    obtain ⟨m, -, rfl⟩ := List.mem_map.mp hx
    exact m.duration_nonneg
  constructor
  · intro h m hm
    have hle := List.single_le_sum hnonneg _ (List.mem_map_of_mem hm)
    exact le_antisymm (hle.trans (not_lt.mp h)) m.duration_nonneg
  · intro h hpos
    have hzero : totalDuration samples = 0 := by
      refine List.sum_eq_zero fun x hx => ?_
      obtain ⟨m, hm, rfl⟩ := List.mem_map.mp hx
      exact h m hm
    exact hpos.ne' hzero

/-- The bandwidth statistics, in the terms of the samples. -/
theorem bandwidth_native {w : WindowMetrics ExactF64} (hne : samples ≠ [])
    (h : ∀ m ∈ samples, m.Native) (hw : aggregateWindow samples = some w) :
    w.bandwidthBitsPerSecond.min = finite (least (samples.map Metrics.rate)) ∧
    w.bandwidthBitsPerSecond.max = finite (peakRate samples) ∧
    w.bandwidthBitsPerSecond.mean = finite (if 0 < totalDuration samples then
      totalBits samples / totalDuration samples else mean (samples.map Metrics.rate)) := by
  have hvalues := bandwidthValues_native h
  have hbits : total (·.transferredBytes) samples * 8 = totalBits samples :=
    (List.sum_map_mul_right ..).symm
  rw [(aggregateWindow_spec hw).bandwidth, hvalues]
  refine ⟨rfl, rfl, ?_⟩
  simp only [ne_eq, List.map_eq_nil_iff, hne, not_false_eq_true, and_true, hbits]
  exact (apply_ite finite ..).symm

/-- The bandwidth statistics are in order exactly if the samples are balanced. -/
theorem window_bandwidth_ordered_iff {w : WindowMetrics ExactF64}
    (h : ∀ m ∈ samples, m.Native) (hw : aggregateWindow samples = some w) :
    w.bandwidthBitsPerSecond.Ordered ↔ Balanced samples := by
  have hne : samples ≠ [] := by
    rintro rfl
    cases hw
  obtain ⟨hmin, hmax, hmean⟩ := bandwidth_native hne h hw
  have hrates : samples.map Metrics.rate ≠ [] := mt List.map_eq_nil_iff.mp hne
  rw [Balanced, ← not_totalDuration_pos_iff, ← totalBits_le_peak_iff]
  by_cases hd : 0 < totalDuration samples
  · rw [if_pos hd] at hmean
    have hlow := (le_div_iff₀ hd).mpr (least_mul_le_totalBits hne)
    rw [← div_le_iff₀ hd]
    constructor
    · rintro ⟨lo, mid, hi, -, hmid, hhi, -, hle⟩
      cases hmean.symm.trans hmid
      cases hmax.symm.trans hhi
      exact .inr hle
    · rintro (hnot | hle)
      · exact absurd hd hnot
      · exact ⟨_, _, _, hmin, hmean, hmax, hlow, hle⟩
  · rw [if_neg hd] at hmean
    exact iff_of_true ⟨_, _, _, hmin, hmean, hmax, least_le_mean hrates, mean_le_greatest hrates⟩
      (.inl hd)

/-- A second that carries 100 bytes, and an interval without a duration that carries as many. -/
def burst : List (Metrics ExactF64) :=
  [{ Metrics.default with
      transferredBytes := finite 100
      bandwidthBitsPerSecond := finite 800
      intervalDurationSeconds := finite 1 },
    { Metrics.default with transferredBytes := finite 100 }]

theorem burst_native : ∀ m ∈ burst, m.Native := by
  intro m hm
  rcases List.mem_cons.mp hm with rfl | hm
  · constructor <;> decide +kernel
  · cases List.mem_singleton.mp hm
    constructor <;> decide +kernel

theorem burst_bandwidth : (aggregateWindow burst).map (·.bandwidthBitsPerSecond) =
    some ⟨2, finite 1600, finite 0, finite 800⟩ := by
  decide +kernel

theorem window_bandwidth_unordered : (∀ m ∈ burst, m.Native) ∧
    ∃ w, aggregateWindow burst = some w ∧ ¬ w.bandwidthBitsPerSecond.Ordered := by
  refine ⟨burst_native, ?_⟩
  obtain ⟨w, hw, hbandwidth⟩ := Option.map_eq_some_iff.mp burst_bandwidth
  refine ⟨w, hw, ?_⟩
  rw [hbandwidth]
  rintro ⟨lo, mid, hi, -, hmid, hhi, -, hle⟩
  cases hmid
  cases hhi
  exact absurd hle (by decide +kernel)

/-- A fast and a slow second, and an interval without a duration whose bits fit below the peak. -/
def calm : List (Metrics ExactF64) :=
  [{ Metrics.default with
      transferredBytes := finite 100
      bandwidthBitsPerSecond := finite 800
      intervalDurationSeconds := finite 1 },
    { Metrics.default with
      transferredBytes := finite 10
      bandwidthBitsPerSecond := finite 80
      intervalDurationSeconds := finite 1 },
    { Metrics.default with transferredBytes := finite 10 }]

theorem calm_native : ∀ m ∈ calm, m.Native := by
  intro m hm
  rcases List.mem_cons.mp hm with rfl | hm
  · constructor <;> decide +kernel
  · rcases List.mem_cons.mp hm with rfl | hm
    · constructor <;> decide +kernel
    · cases List.mem_singleton.mp hm
      constructor <;> decide +kernel

theorem window_bandwidth_ordered_iff_burst :
    (∃ w, aggregateWindow burst = some w ∧
      (w.bandwidthBitsPerSecond.Ordered ↔ Balanced burst)) ∧
    ∃ w, aggregateWindow calm = some w ∧ w.bandwidthBitsPerSecond.Ordered ∧ Balanced calm := by
  obtain ⟨w, hw, -⟩ := Option.map_eq_some_iff.mp burst_bandwidth
  refine ⟨⟨w, hw, window_bandwidth_ordered_iff burst_native hw⟩, ?_⟩
  have hbalanced : Balanced calm := .inr (by decide +kernel)
  obtain ⟨w, hw⟩ := Option.isSome_iff_exists.mp
    (show (aggregateWindow calm).isSome = true by decide +kernel)
  exact ⟨w, hw, (window_bandwidth_ordered_iff calm_native hw).mpr hbalanced, hbalanced⟩

end Iperf3Rs
