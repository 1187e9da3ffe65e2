import Mathlib.Algebra.Order.BigOperators.Group.List
import Mathlib.Algebra.Order.Field.Basic
import Mathlib.Algebra.BigOperators.Ring.List
import Mathlib.Data.List.Perm.Basic
import Mathlib.Order.Lattice
import Mathlib.Tactic.FieldSimp
import Mathlib.Tactic.Ring

/-! The least and the greatest element of a list, its mean, and how they behave when lists are
joined or reordered. All three are zero for the empty list. -/

namespace Iperf3Rs

namespace Statistics

section Extremes

variable {K : Type*} [Zero K] [LinearOrder K] {l m : List K} {x : K}

def least (l : List K) : K := l.min?.getD 0

def greatest (l : List K) : K := l.max?.getD 0

theorem least_spec (h : l ≠ []) : least l ∈ l ∧ ∀ y ∈ l, least l ≤ y := by
  obtain ⟨a, ha⟩ := Option.ne_none_iff_exists'.mp (mt List.min?_eq_none_iff.mp h)
  rw [least, ha]
  exact List.min?_eq_some_iff.mp ha

theorem greatest_spec (h : l ≠ []) : greatest l ∈ l ∧ ∀ y ∈ l, y ≤ greatest l := by
  obtain ⟨a, ha⟩ := Option.ne_none_iff_exists'.mp (mt List.max?_eq_none_iff.mp h)
  rw [greatest, ha]
  exact List.max?_eq_some_iff.mp ha

theorem least_eq (hmem : x ∈ l) (hle : ∀ y ∈ l, x ≤ y) : least l = x := by
  obtain ⟨hleast, hall⟩ := least_spec (List.ne_nil_of_mem hmem)
  exact le_antisymm (hall x hmem) (hle _ hleast)

theorem greatest_eq (hmem : x ∈ l) (hle : ∀ y ∈ l, y ≤ x) : greatest l = x := by
  obtain ⟨hgreatest, hall⟩ := greatest_spec (List.ne_nil_of_mem hmem)
  exact le_antisymm (hle _ hgreatest) (hall x hmem)

theorem least_append (hl : l ≠ []) (hm : m ≠ []) :
    least (l ++ m) = min (least l) (least m) := by
  obtain ⟨hlmem, hlle⟩ := least_spec hl
  obtain ⟨hmmem, hmle⟩ := least_spec hm
  refine least_eq ?_ fun y hy => ?_
  · rcases min_choice (least l) (least m) with h | h <;> rw [h]
    · exact List.mem_append_left _ hlmem
    · exact List.mem_append_right _ hmmem
  · rcases List.mem_append.mp hy with hy | hy
    · exact (min_le_left _ _).trans (hlle y hy)
    · exact (min_le_right _ _).trans (hmle y hy)

theorem greatest_append (hl : l ≠ []) (hm : m ≠ []) :
    greatest (l ++ m) = max (greatest l) (greatest m) := by
  obtain ⟨hlmem, hlle⟩ := greatest_spec hl
  obtain ⟨hmmem, hmle⟩ := greatest_spec hm
  refine greatest_eq ?_ fun y hy => ?_
  · rcases max_choice (greatest l) (greatest m) with h | h <;> rw [h]
    · exact List.mem_append_left _ hlmem
    · exact List.mem_append_right _ hmmem
  · rcases List.mem_append.mp hy with hy | hy
    · exact (hlle y hy).trans (le_max_left _ _)
    · exact (hmle y hy).trans (le_max_right _ _)

@[simp] theorem least_singleton (x : K) : least [x] = x := rfl

@[simp] theorem greatest_singleton (x : K) : greatest [x] = x := rfl

theorem least_perm (h : l.Perm m) : least l = least m := by
  by_cases hl : l = []
  · subst hl
    rw [List.nil_perm.mp h]
  · obtain ⟨hmem, hle⟩ := least_spec hl
    exact (least_eq (h.mem_iff.mp hmem) fun y hy => hle y (h.mem_iff.mpr hy)).symm

theorem greatest_perm (h : l.Perm m) : greatest l = greatest m := by
  by_cases hl : l = []
  · subst hl
    rw [List.nil_perm.mp h]
  · obtain ⟨hmem, hle⟩ := greatest_spec hl
    exact (greatest_eq (h.mem_iff.mp hmem) fun y hy => hle y (h.mem_iff.mpr hy)).symm

end Extremes

section Mean

variable {K : Type*} [Semifield K] [LinearOrder K] [IsStrictOrderedRing K] {l m : List K}

def mean (l : List K) : K := l.sum / l.length

omit [LinearOrder K] [IsStrictOrderedRing K] in
theorem mean_perm (h : l.Perm m) : mean l = mean m := by
  rw [mean, mean, h.sum_eq, h.length_eq]

omit [LinearOrder K] [IsStrictOrderedRing K] in
theorem mean_map_div (l : List K) (c : K) : mean (l.map (· / c)) = mean l / c := by
  have hsum : (l.map (· / c)).sum = l.sum / c := by
    simp only [div_eq_mul_inv, List.sum_map_mul_right, List.map_id']
  rw [mean, mean, hsum, List.length_map, div_right_comm]

theorem length_mul_mean (l : List K) : l.length * mean l = l.sum := by
  cases l with
  | nil => simp [mean]
  | cons x l =>
    have hne : ((x :: l).length : K) ≠ 0 := by
      rw [List.length_cons]
      exact Nat.cast_ne_zero.mpr (Nat.succ_ne_zero _)
    rw [mean]
    field_simp

/-- The mean of two lists together is that of their means, weighted by their lengths. -/
theorem mean_append (l m : List K) :
    mean (l ++ m) = (l.length * mean l + m.length * mean m) / (l.length + m.length) := by
  rw [length_mul_mean, length_mul_mean, mean, List.sum_append, List.length_append, Nat.cast_add]

theorem length_pos_of_ne_nil (h : l ≠ []) : (0 : K) < l.length :=
  Nat.cast_pos.mpr (List.length_pos_iff.mpr h)

/-- A weighted sum is bounded by a bound of its values. -/
theorem mul_sum_le {α : Type*} {items : List α} (weight value : α → K) {a : K}
    (hweight : ∀ i ∈ items, 0 ≤ weight i) (hvalue : ∀ i ∈ items, a ≤ value i) :
    a * (items.map weight).sum ≤ (items.map fun i => weight i * value i).sum := by
  rw [← List.sum_map_mul_left]
  refine List.sum_le_sum fun i hi => ?_
  rw [mul_comm]
  exact mul_le_mul_of_nonneg_left (hvalue i hi) (hweight i hi)

theorem sum_le_mul {α : Type*} {items : List α} (weight value : α → K) {a : K}
    (hweight : ∀ i ∈ items, 0 ≤ weight i) (hvalue : ∀ i ∈ items, value i ≤ a) :
    (items.map fun i => weight i * value i).sum ≤ a * (items.map weight).sum := by
  rw [← List.sum_map_mul_left]
  refine List.sum_le_sum fun i hi => ?_
  rw [mul_comm a]
  exact mul_le_mul_of_nonneg_left (hvalue i hi) (hweight i hi)

theorem least_le_mean (h : l ≠ []) : least l ≤ mean l := by
  rw [mean, le_div_iff₀ (length_pos_of_ne_nil h)]
  have hsum := mul_sum_le (fun _ => (1 : K)) id (fun _ _ => zero_le_one) (least_spec h).2
  simpa using hsum

theorem mean_le_greatest (h : l ≠ []) : mean l ≤ greatest l := by
  rw [mean, div_le_iff₀ (length_pos_of_ne_nil h)]
  have hsum := sum_le_mul (fun _ => (1 : K)) id (fun _ _ => zero_le_one) (greatest_spec h).2
  simpa using hsum

end Mean

end Statistics

end Iperf3Rs
