import Iperf3Rs.WindowStatistics

/-! How the summary of joined windows follows from the summaries of the parts. The order of the
samples in a window does not matter, and the totals of a run do not depend on how it is cut into
windows. -/

namespace Iperf3Rs

open Statistics
open ExactF64 (finite rational positivePart)

/-- The statistics of two lists of values together. An empty list has no least or greatest
value. -/
structure GaugeStatsSum (x y z : WindowGaugeStats ExactF64) : Prop where
  samples : z.samples = x.samples + y.samples
  min : z.min = if x.samples = 0 then y.min else if y.samples = 0 then x.min
    else Min.min x.min y.min
  max : z.max = if x.samples = 0 then y.max else if y.samples = 0 then x.max
    else Max.max x.max y.max

def weightedMean (x y : WindowGaugeStats ExactF64) : ExactF64 :=
  ((x.samples : ExactF64) * x.mean + (y.samples : ExactF64) * y.mean) /
    ((x.samples + y.samples : ℕ) : ExactF64)

def addCounters : Option ExactF64 → Option ExactF64 → Option ExactF64
  | none, y => y
  | some x, none => some x
  | some x, some y => some (x + y)

/-- The summary `z` of two windows together. -/
structure WindowSum (x y z : WindowMetrics ExactF64) : Prop where
  duration : z.durationSeconds = x.durationSeconds + y.durationSeconds
  bytes : z.transferredBytes = x.transferredBytes + y.transferredBytes
  omitted : z.omittedIntervals = x.omittedIntervals + y.omittedIntervals
  counter : ∀ c : Counter, c.total z = addCounters (c.total x) (c.total y)
  gauge : ∀ g : Gauge, GaugeStatsSum (g.stats x) (g.stats y) (g.stats z)
  gaugeMean : ∀ g : Gauge, 0 < (g.stats z).samples →
    (g.stats z).mean = weightedMean (g.stats x) (g.stats y)
  bandwidth : GaugeStatsSum x.bandwidthBitsPerSecond y.bandwidthBitsPerSecond
    z.bandwidthBitsPerSecond
  bandwidthMean : F64.lt 0 z.durationSeconds = true → 0 < z.bandwidthBitsPerSecond.samples →
    z.bandwidthBitsPerSecond.mean = z.transferredBytes * ((8 : ℕ) : ExactF64) / z.durationSeconds

/-- The same summary, but for context and timestamp. -/
structure SameSummary (x y : WindowMetrics ExactF64) : Prop where
  duration : x.durationSeconds = y.durationSeconds
  bytes : x.transferredBytes = y.transferredBytes
  bandwidth : x.bandwidthBitsPerSecond = y.bandwidthBitsPerSecond
  gauge : ∀ g : Gauge, g.stats x = g.stats y
  counter : ∀ c : Counter, c.total x = c.total y
  omitted : x.omittedIntervals = y.omittedIntervals

/-- Least value, mean and greatest value, in this order. -/
def WindowGaugeStats.Ordered (stats : WindowGaugeStats ExactF64) : Prop :=
  ∃ lo mid hi : ℚ, stats.min = finite lo ∧ stats.mean = finite mid ∧ stats.max = finite hi ∧
    lo ≤ mid ∧ mid ≤ hi

/-- What the windows of a run add up to. -/
structure RunTotals where
  duration : ExactF64
  bytes : ExactF64
  omitted : ExactF64
  bandwidthSamples : ℕ
  gaugeSamples : Gauge → ℕ
  counter : Counter → Option ExactF64

def runTotals (windows : List (List (Metrics ExactF64))) : RunTotals :=
  let summaries := windows.filterMap aggregateWindow
  { duration := (summaries.map (·.durationSeconds)).sum
    bytes := (summaries.map (·.transferredBytes)).sum
    omitted := (summaries.map (·.omittedIntervals)).sum
    bandwidthSamples := (summaries.map (·.bandwidthBitsPerSecond.samples)).sum
    gaugeSamples := fun g => (summaries.map fun w => (g.stats w).samples).sum
    counter := fun c => (summaries.map c.total).foldr addCounters none }

theorem gaugeSummary_ordered (values : List ℚ) : (gaugeSummary values).Ordered := by
  refine ⟨least values, mean values, greatest values, rfl, rfl, rfl, ?_, ?_⟩
  · by_cases hv : values = []
    · subst hv
      simp [mean, least]
    · exact least_le_mean hv
  · by_cases hv : values = []
    · subst hv
      simp [mean, greatest]
    · exact mean_le_greatest hv

theorem gaugeSummary_append (l m : List ℚ) :
    GaugeStatsSum (gaugeSummary l) (gaugeSummary m) (gaugeSummary (l ++ m)) := by
  refine ⟨List.length_append, ?_, ?_⟩
  · by_cases hl : l = []
    · subst hl
      rfl
    · by_cases hm : m = []
      · subst hm
        simp [gaugeSummary, hl]
      · simp [gaugeSummary, hl, hm, least_append hl hm, min_finite]
  · by_cases hl : l = []
    · subst hl
      rfl
    · by_cases hm : m = []
      · subst hm
        simp [gaugeSummary, hl]
      · simp [gaugeSummary, hl, hm, greatest_append hl hm, max_finite]

theorem gaugeSummary_mean_append (l m : List ℚ) (h : 0 < (gaugeSummary (l ++ m)).samples) :
    (gaugeSummary (l ++ m)).mean = weightedMean (gaugeSummary l) (gaugeSummary m) := by
  have hlength : (gaugeSummary (l ++ m)).samples = l.length + m.length := List.length_append
  have hne : ((l.length + m.length : ℕ) : ℚ) ≠ 0 := Nat.cast_ne_zero.mpr (by omega)
  have hmean : mean (l ++ m) = (l.length * mean l + m.length * mean m) /
      ((l.length + m.length : ℕ) : ℚ) := by
    rw [mean_append, Nat.cast_add]
  exact (congrArg finite hmean).trans (ExactF64.finite_div hne).symm

theorem counterTotal_append (l m : List ExactF64) :
    counterTotal (l ++ m) = addCounters (counterTotal l) (counterTotal m) := by
  cases l with
  | nil => rfl
  | cons x l =>
    cases m with
    | nil =>
      rw [List.append_nil]
      rfl
    | cons y m =>
      have hsum : finite (((x :: l) ++ y :: m).map positivePart).sum =
          finite ((x :: l).map positivePart).sum + finite ((y :: m).map positivePart).sum := by
        rw [List.map_append, List.sum_append]
        rfl
      exact congrArg some hsum

theorem total_append (f : Metrics ExactF64 → ExactF64) (xs ys : List (Metrics ExactF64)) :
    finite (total f (xs ++ ys)) = finite (total f xs) + finite (total f ys) := by
  rw [total, List.map_append, List.sum_append]
  rfl

theorem omitted_append (xs ys : List (Metrics ExactF64)) :
    finite ((xs ++ ys).countP Metrics.omitted) =
      finite (xs.countP Metrics.omitted) + finite (ys.countP Metrics.omitted) := by
  rw [List.countP_append, Nat.cast_add]
  rfl

theorem Gauge.values_append (g : Gauge) (xs ys : List (Metrics ExactF64)) :
    g.values (xs ++ ys) = g.values xs ++ g.values ys :=
  List.filterMap_append

theorem Counter.values_append (c : Counter) (xs ys : List (Metrics ExactF64)) :
    c.values (xs ++ ys) = c.values xs ++ c.values ys :=
  List.filterMap_append

theorem bandwidthValues_append (xs ys : List (Metrics ExactF64)) :
    bandwidthValues (xs ++ ys) = bandwidthValues xs ++ bandwidthValues ys :=
  List.filterMap_append

/-- Number, least and greatest value of the bandwidth are those of any gauge. -/
theorem GaugeStatsSum.of_mean {x y z : WindowGaugeStats ExactF64} (h : GaugeStatsSum x y z)
    (a b c : ExactF64) :
    GaugeStatsSum { x with mean := a } { y with mean := b } { z with mean := c } :=
  ⟨h.samples, h.min, h.max⟩

variable {xs ys : List (Metrics ExactF64)} {x y z : WindowMetrics ExactF64}

theorem WindowSpec.bandwidth_mean (h : WindowSpec xs x)
    (hduration : F64.lt 0 x.durationSeconds = true)
    (hsamples : 0 < x.bandwidthBitsPerSecond.samples) :
    x.bandwidthBitsPerSecond.mean =
      x.transferredBytes * ((8 : ℕ) : ExactF64) / x.durationSeconds := by
  rw [h.duration] at hduration
  rw [h.bandwidth] at hsamples
  have hd : 0 < total (·.intervalDurationSeconds) xs := of_decide_eq_true hduration
  have hv : bandwidthValues xs ≠ [] := List.length_pos_iff.mp hsamples
  rw [h.bandwidth, h.bytes, h.duration]
  refine Eq.trans ?_ (ExactF64.finite_div hd.ne').symm
  exact if_pos ⟨hd, hv⟩

theorem WindowSpec.append (hx : WindowSpec xs x) (hy : WindowSpec ys y)
    (hz : WindowSpec (xs ++ ys) z) : WindowSum x y z where
  duration := by rw [hx.duration, hy.duration, hz.duration, total_append]
  bytes := by rw [hx.bytes, hy.bytes, hz.bytes, total_append]
  omitted := by rw [hx.omitted, hy.omitted, hz.omitted, omitted_append]
  counter c := by rw [hx.counter, hy.counter, hz.counter, c.values_append, counterTotal_append]
  gauge g := by
    rw [hx.gauge, hy.gauge, hz.gauge, g.values_append]
    exact gaugeSummary_append _ _
  gaugeMean g := by
    rw [hx.gauge, hy.gauge, hz.gauge, g.values_append]
    exact gaugeSummary_mean_append _ _
  bandwidth := by
    rw [hx.bandwidth, hy.bandwidth, hz.bandwidth, bandwidthValues_append]
    exact (gaugeSummary_append _ _).of_mean _ _ _
  bandwidthMean := hz.bandwidth_mean

theorem total_perm (f : Metrics ExactF64 → ExactF64) (h : xs.Perm ys) : total f xs = total f ys :=
  (h.map _).sum_eq

theorem gaugeSummary_perm {l m : List ℚ} (h : l.Perm m) : gaugeSummary l = gaugeSummary m := by
  rw [gaugeSummary, gaugeSummary, h.length_eq, mean_perm h, least_perm h, greatest_perm h]

theorem counterTotal_perm {l m : List ExactF64} (h : l.Perm m) :
    counterTotal l = counterTotal m := by
  have hnil : l = [] ↔ m = [] := by
    rw [← List.length_eq_zero_iff, h.length_eq, List.length_eq_zero_iff]
  rw [counterTotal, counterTotal, (h.map _).sum_eq]
  simp only [hnil]

theorem WindowSpec.perm (hx : WindowSpec xs x) (hy : WindowSpec ys y) (h : xs.Perm ys) :
    SameSummary x y where
  duration := by rw [hx.duration, hy.duration, total_perm _ h]
  bytes := by rw [hx.bytes, hy.bytes, total_perm _ h]
  bandwidth := by
    have hb : (bandwidthValues xs).Perm (bandwidthValues ys) := h.filterMap _
    have hnil : bandwidthValues xs = [] ↔ bandwidthValues ys = [] := by
      rw [← List.length_eq_zero_iff, hb.length_eq, List.length_eq_zero_iff]
    rw [hx.bandwidth, hy.bandwidth, gaugeSummary_perm hb, mean_perm hb, total_perm _ h,
      total_perm _ h]
    simp only [ne_eq, hnil]
  gauge g := by
    rw [hx.gauge, hy.gauge]
    exact gaugeSummary_perm (h.filterMap _)
  counter c := by
    rw [hx.counter, hy.counter]
    exact counterTotal_perm (h.filterMap _)
  omitted := by rw [hx.omitted, hy.omitted, h.countP_eq]

/-- A quantity of a window that adds up when lists of samples are joined adds up over windows. -/
theorem foldr_windows {A : Type*} (op : A → A → A) (f : WindowMetrics ExactF64 → A)
    (quantity : List (Metrics ExactF64) → A)
    (happend : ∀ xs ys, quantity (xs ++ ys) = op (quantity xs) (quantity ys))
    (hf : ∀ xs w, WindowSpec xs w → f w = quantity xs)
    (windows : List (List (Metrics ExactF64))) :
    ((windows.filterMap aggregateWindow).map f).foldr op (quantity []) =
      quantity windows.flatten := by
  induction windows with
  | nil => rfl
  | cons xs windows ih =>
    cases h : aggregateWindow xs with
    | none =>
      rw [List.filterMap_cons_none h, ih, (aggregateWindow_eq_none_iff xs).mp h]
      rfl
    | some w =>
      rw [List.filterMap_cons_some h, List.map_cons, List.foldr_cons, ih, List.flatten_cons,
        happend, hf xs w (aggregateWindow_spec h)]

/-- The totals of a run are those of its samples. -/
theorem runTotals_eq (windows : List (List (Metrics ExactF64))) :
    runTotals windows =
      { duration := finite (total (·.intervalDurationSeconds) windows.flatten)
        bytes := finite (total (·.transferredBytes) windows.flatten)
        omitted := finite (windows.flatten.countP Metrics.omitted)
        bandwidthSamples := (bandwidthValues windows.flatten).length
        gaugeSamples := fun g => (g.values windows.flatten).length
        counter := fun c => counterTotal (c.values windows.flatten) } := by
  have hduration := foldr_windows (· + ·) (·.durationSeconds)
    (fun xs => finite (total (·.intervalDurationSeconds) xs)) (total_append _)
    (fun _ _ h => h.duration) windows
  have hbytes := foldr_windows (· + ·) (·.transferredBytes)
    (fun xs => finite (total (·.transferredBytes) xs)) (total_append _)
    (fun _ _ h => h.bytes) windows
  have homitted := foldr_windows (· + ·) (·.omittedIntervals)
    (fun xs => finite (xs.countP Metrics.omitted)) omitted_append (fun _ _ h => h.omitted) windows
  have hbandwidth := foldr_windows (· + ·) (·.bandwidthBitsPerSecond.samples)
    (fun xs => (bandwidthValues xs).length)
    (fun xs ys => by rw [bandwidthValues_append, List.length_append])
    (fun _ _ h => by rw [h.bandwidth]; rfl) windows
  have hgauge := fun g : Gauge => foldr_windows (· + ·) (fun w => (g.stats w).samples)
    (fun xs => (g.values xs).length)
    (fun xs ys => by rw [g.values_append, List.length_append])
    (fun _ _ h => by rw [h.gauge]; rfl) windows
  have hcounter := fun c : Counter => foldr_windows addCounters c.total
    (fun xs => counterTotal (c.values xs))
    (fun xs ys => by rw [c.values_append, counterTotal_append])
    (fun _ _ h => h.counter c) windows
  rw [runTotals, RunTotals.mk.injEq]
  exact ⟨hduration, hbytes, homitted, hbandwidth, funext hgauge, funext hcounter⟩

/-- Every summary is the specified one and its gauges are ordered; the summary of two windows
joined follows from theirs; the order within a window does not matter; and the totals of a run do
not depend on how it is cut. -/
theorem aggregate_window_homomorphism :
    (∀ samples : List (Metrics ExactF64), samples ≠ [] → ∃ w, aggregateWindow samples = some w ∧
      WindowSpec samples w ∧ ∀ g : Gauge, (g.stats w).Ordered) ∧
    (∀ xs ys x y, aggregateWindow xs = some x → aggregateWindow ys = some y →
      ∃ z, aggregateWindow (xs ++ ys) = some z ∧ WindowSum x y z) ∧
    (∀ xs ys x, xs.Perm ys → aggregateWindow xs = some x →
      ∃ y, aggregateWindow ys = some y ∧ SameSummary x y) ∧
    ∀ windows windows' : List (List (Metrics ExactF64)), windows.flatten = windows'.flatten →
      runTotals windows = runTotals windows' := by
  have hsome : ∀ samples : List (Metrics ExactF64), samples ≠ [] →
      ∃ w, aggregateWindow samples = some w := by
    intro samples hne
    exact Option.ne_none_iff_exists'.mp (mt (aggregateWindow_eq_none_iff samples).mp hne)
  have hne : ∀ {samples : List (Metrics ExactF64)} {w}, aggregateWindow samples = some w →
      samples ≠ [] := by
    rintro samples w h rfl
    cases h
  refine ⟨fun samples hs => ?_, fun xs ys x y hx hy => ?_, fun xs ys x h hx => ?_,
    fun windows windows' h => ?_⟩
  · obtain ⟨w, hw⟩ := hsome samples hs
    have hspec := aggregateWindow_spec hw
    refine ⟨w, hw, hspec, fun g => ?_⟩
    rw [hspec.gauge]
    exact gaugeSummary_ordered _
  · obtain ⟨z, hz⟩ := hsome (xs ++ ys) (List.append_ne_nil_of_left_ne_nil (hne hx) _)
    exact ⟨z, hz, (aggregateWindow_spec hx).append (aggregateWindow_spec hy)
      (aggregateWindow_spec hz)⟩
  · obtain ⟨y, hy⟩ := hsome ys fun hnil => hne hx (List.perm_nil.mp (hnil ▸ h))
    exact ⟨y, hy, (aggregateWindow_spec hx).perm (aggregateWindow_spec hy) h⟩
  · rw [runTotals_eq, runTotals_eq, h]

/-- A second with an RTT of 3 and a negative counter, and half a second whose RTT is no number. -/
def splitRun : List (Metrics ExactF64) :=
  [{ Metrics.default with
      transferredBytes := finite 100
      bandwidthBitsPerSecond := finite 800
      tcpRttSeconds := some (finite 3)
      tcpRetransmits := some (finite (-1))
      intervalDurationSeconds := finite 1 },
    { Metrics.default with
      transferredBytes := finite 50
      bandwidthBitsPerSecond := finite 800
      tcpRttSeconds := some .nan
      intervalDurationSeconds := finite (1 / 2)
      omitted := true }]

theorem aggregate_window_homomorphism_split :
    (∃ x y z, aggregateWindow (splitRun.take 1) = some x ∧
      aggregateWindow (splitRun.drop 1) = some y ∧
      aggregateWindow (splitRun.take 1 ++ splitRun.drop 1) = some z ∧ WindowSum x y z) ∧
    runTotals [splitRun.take 1, splitRun.drop 1] = runTotals [splitRun] := by
  obtain ⟨hspec, hsum, -, htotals⟩ := aggregate_window_homomorphism
  obtain ⟨x, hx, -⟩ := hspec (splitRun.take 1) (List.cons_ne_nil _ _)
  obtain ⟨y, hy, -⟩ := hspec (splitRun.drop 1) (List.cons_ne_nil _ _)
  obtain ⟨z, hz, hxyz⟩ := hsum _ _ x y hx hy
  exact ⟨⟨x, y, z, hx, hy, hz, hxyz⟩, htotals _ _ rfl⟩

end Iperf3Rs
