import Mathlib.Algebra.BigOperators.Group.List.Basic
import Mathlib.Algebra.Ring.Int.Defs
import Mathlib.Data.List.SplitBy

/-! A cumulative counter that may be reset. Its values fall into epochs, the maximal runs in which
it does not decrease, and the increments between successive values add up to the last values of
the epochs. -/

namespace CounterEpochs

def epochs (values : List ℤ) : List (List ℤ) := values.splitBy fun a b => decide (a ≤ b)

/-- The sum of the last values of the epochs. -/
def endSum (values : List ℤ) : ℤ := ((epochs values).map fun epoch => epoch.getLast?.getD 0).sum

/-- A value below its predecessor starts a new epoch from zero. -/
def increment (value previous : ℤ) : ℤ := if value < previous then value else value - previous

/-- A function of every value and the one before it. -/
def successive (f : ℤ → ℤ → ℤ) (previous : ℤ) : List ℤ → List ℤ
  | [] => []
  | value :: values => f value previous :: successive f value values

def increments (previous : ℤ) (values : List ℤ) : List ℤ := successive increment previous values

theorem successive_append (f : ℤ → ℤ → ℤ) (previous : ℤ) (values : List ℤ) (value : ℤ) :
    successive f previous (values ++ [value]) =
      successive f previous values ++ [f value (values.getLast?.getD previous)] := by
  induction values generalizing previous with
  | nil => rfl
  | cons head values ih =>
    rw [List.cons_append, successive, successive, ih, List.getLast?_cons]
    rfl

/-- Functions that agree on nonnegative values may be exchanged while the values are. -/
theorem successive_congr {f g : ℤ → ℤ → ℤ} (hfg : ∀ a b, 0 ≤ a → 0 ≤ b → f a b = g a b)
    {previous : ℤ} {values : List ℤ} (hprevious : 0 ≤ previous)
    (h : ∀ value ∈ values, 0 ≤ value) :
    successive f previous values = successive g previous values := by
  induction values generalizing previous with
  | nil => rfl
  | cons value values ih =>
    have hvalue := h value List.mem_cons_self
    rw [successive, successive, hfg value previous hvalue hprevious,
      ih hvalue fun v hv => h v (List.mem_cons_of_mem _ hv)]

theorem endSum_nil : endSum [] = 0 := by
  rw [endSum, epochs, List.splitBy_nil]
  rfl

theorem endSum_of_increasing {values : List ℤ} (h : values.IsChain (· ≤ ·)) :
    endSum values = values.getLast?.getD 0 := by
  rcases eq_or_ne values [] with rfl | hne
  · exact endSum_nil
  · have hchain : values.IsChain fun a b => decide (a ≤ b) = true := by
      simpa only [decide_eq_true_eq] using h
    rw [endSum, epochs, List.splitBy_of_isChain hne hchain]
    simp

theorem endSum_cons_of_lt {a b : ℤ} (h : b < a) (values : List ℤ) :
    endSum (a :: b :: values) = a + endSum (b :: values) := by
  have hsplit : epochs (a :: b :: values) = epochs [a] ++ epochs (b :: values) := by
    apply List.splitBy_append_cons (l := [a])
    intro x hx
    obtain rfl : a = x := by simpa using hx
    simpa using h
  have hone : epochs [a] = [[a]] := List.splitBy_of_isChain (List.cons_ne_nil _ _) (by simp)
  rw [endSum, hsplit, hone]
  simp [endSum]

theorem endSum_cons_of_le {a b : ℤ} (h : a ≤ b) (values : List ℤ) :
    endSum (a :: b :: values) = endSum (b :: values) := by
  obtain ⟨epoch, rest, hepochs⟩ : ∃ epoch rest, epochs (b :: values) = epoch :: rest :=
    List.exists_cons_of_ne_nil (List.splitBy_ne_nil.mpr (List.cons_ne_nil _ _))
  obtain ⟨hflatten, hnil, hchain, hbreak⟩ := List.splitBy_eq_iff.mp hepochs
  have hne : epoch ≠ [] := by
    rintro rfl
    exact hnil List.mem_cons_self
  obtain ⟨first, epoch, rfl⟩ := List.exists_cons_of_ne_nil hne
  obtain ⟨rfl, -⟩ : b = first ∧ values = epoch ++ rest.flatten := by
    simpa using hflatten
  have hjoined : epochs (a :: b :: values) = (a :: b :: epoch) :: rest := by
    apply List.splitBy_eq_iff.mpr
    refine ⟨by simpa using hflatten, by simpa using hnil, ?_, ?_⟩
    · intro l hl
      rcases List.mem_cons.mp hl with rfl | hl
      · have hfirst := hchain _ List.mem_cons_self
        rw [List.isChain_cons_cons]
        exact ⟨decide_eq_true h, hfirst⟩
      · exact hchain l (List.mem_cons_of_mem _ hl)
    · cases rest with
      | nil => simp
      | cons next rest =>
        rw [List.isChain_cons_cons] at hbreak ⊢
        refine ⟨?_, hbreak.2⟩
        obtain ⟨_, hb, hlast⟩ := hbreak.1
        refine ⟨List.cons_ne_nil _ _, hb, ?_⟩
        rw [List.getLast_cons (List.cons_ne_nil _ _)]
        exact hlast
  rw [endSum, endSum, hjoined, hepochs, List.map_cons, List.map_cons, List.getLast?_cons_cons]

theorem sum_increments (previous : ℤ) (values : List ℤ) :
    (increments previous values).sum = endSum (previous :: values) - previous := by
  induction values generalizing previous with
  | nil =>
    rw [endSum_of_increasing (List.isChain_singleton _)]
    simp [increments, successive]
  | cons value values ih =>
    have hrest := ih value
    rw [increments] at hrest ⊢
    rw [successive, List.sum_cons, hrest, increment]
    by_cases h : value < previous
    · rw [if_pos h, endSum_cons_of_lt h]
      omega
    · rw [if_neg h, endSum_cons_of_le (by omega)]
      omega

/-- From zero, the values alone count. -/
theorem endSum_zero_cons {values : List ℤ} (h : ∀ value ∈ values, 0 ≤ value) :
    endSum (0 :: values) = endSum values := by
  cases values with
  | nil =>
    rw [endSum_of_increasing (List.isChain_singleton _), endSum_nil]
    rfl
  | cons value values => exact endSum_cons_of_le (h value List.mem_cons_self) values

theorem increment_nonneg {value previous : ℤ} (h : 0 ≤ value) : 0 ≤ increment value previous := by
  rw [increment]
  by_cases hlt : value < previous
  · rwa [if_pos hlt]
  · rw [if_neg hlt]
    omega

theorem increments_nonneg {values : List ℤ} (h : ∀ value ∈ values, 0 ≤ value) (previous : ℤ) :
    ∀ d ∈ increments previous values, 0 ≤ d := by
  induction values generalizing previous with
  | nil =>
    intro d hd
    cases hd
  | cons value values ih =>
    intro d hd
    rcases List.mem_cons.mp hd with rfl | hd
    · exact increment_nonneg (h value List.mem_cons_self)
    · exact ih (fun v hv => h v (List.mem_cons_of_mem _ hv)) value d hd

end CounterEpochs
