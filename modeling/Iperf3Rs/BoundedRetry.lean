import Mathlib.Data.ENat.Lattice
import Mathlib.Data.Nat.Find

/-! An operation tried again after some of its outcomes, up to a number of retries. The attempts
are numbered from zero, and every attempt but the last is followed by a pause. -/

namespace BoundedRetry

inductive Event where
  | attempt
  | pause (index : ℕ)
  deriving DecidableEq, Repr

variable {α : Type*} (again : α → Bool) (outcome : ℕ → α) (retries : ℕ)

/-- The attempts at the given indices in order. The result is `none` when the indices run out. -/
def runOver : List ℕ → List Event × Option α
  | [] => ([], none)
  | index :: rest =>
    if again (outcome index) && index < retries then
      (.attempt :: .pause index :: (runOver rest).1, (runOver rest).2)
    else ([.attempt], some (outcome index))

def run : List Event × Option α := runOver again outcome retries (List.range (retries + 1))

open Classical in
/-- The index of the first outcome that is not tried again, infinite when there is none. -/
noncomputable def firstFinal : ℕ∞ :=
  if h : ∃ index, again (outcome index) = false then (Nat.find h : ℕ∞) else ⊤

/-- An attempt ends the run when its outcome is final or no retry is left. -/
theorem exists_last : ∃ index, index = retries ∨ again (outcome index) = false :=
  ⟨retries, .inl rfl⟩

def lastAttempt : ℕ := Nat.find (exists_last again outcome retries)

/-- The events of a run whose last attempt has index `last`. -/
def trace (last : ℕ) : List Event :=
  (List.range last).flatMap (fun index => [.attempt, .pause index]) ++ [.attempt]

theorem lastAttempt_le : lastAttempt again outcome retries ≤ retries :=
  Nat.find_min' (exists_last again outcome retries) (.inl rfl)

theorem lastAttempt_spec :
    lastAttempt again outcome retries = retries ∨
      again (outcome (lastAttempt again outcome retries)) = false :=
  Nat.find_spec (exists_last again outcome retries)

theorem again_of_lt_lastAttempt {index : ℕ} (h : index < lastAttempt again outcome retries) :
    again (outcome index) = true := by
  have hmin := Nat.find_min (exists_last again outcome retries) h
  cases hagain : again (outcome index) with
  | true => rfl
  | false => exact absurd (Or.inr hagain) hmin

theorem lastAttempt_eq_min :
    (lastAttempt again outcome retries : ℕ∞) = min (firstFinal again outcome) retries := by
  have hle := lastAttempt_le again outcome retries
  by_cases h : ∃ index, again (outcome index) = false
  · have hfirst : lastAttempt again outcome retries = min (Nat.find h) retries := by
      apply le_antisymm
      · refine le_min ?_ hle
        exact Nat.find_min' _ (.inr (Nat.find_spec h))
      · rcases lastAttempt_spec again outcome retries with he | he
        · rw [he]
          exact min_le_right _ _
        · exact (min_le_left _ _).trans (Nat.find_min' h he)
    rw [firstFinal, dif_pos h, hfirst]
    exact (Nat.mono_cast (α := ℕ∞)).map_min
  · have hlast : lastAttempt again outcome retries = retries := by
      rcases lastAttempt_spec again outcome retries with he | he
      · exact he
      · exact absurd ⟨_, he⟩ h
    rw [firstFinal, dif_neg h, hlast, min_eq_right le_top]

/-- From any index up to the last attempt, the run continues to that attempt. -/
theorem runOver_range' (index count : ℕ) (hend : index + count = retries + 1)
    (hle : index ≤ lastAttempt again outcome retries) :
    runOver again outcome retries (List.range' index count) =
      ((List.range' index (lastAttempt again outcome retries - index)).flatMap
          (fun index => [.attempt, .pause index]) ++ [.attempt],
        some (outcome (lastAttempt again outcome retries))) := by
  have hlast := lastAttempt_le again outcome retries
  induction count generalizing index with
  | zero => omega
  | succ count ih =>
    rw [List.range'_succ, runOver]
    by_cases heq : index = lastAttempt again outcome retries
    · have hstop : (again (outcome index) && decide (index < retries)) = false := by
        rcases lastAttempt_spec again outcome retries with he | he
        · simp [heq, he]
        · simp [heq, he]
      rw [if_neg (by simp [hstop]), ← heq, Nat.sub_self]
      rfl
    · have hlt : index < lastAttempt again outcome retries := by omega
      have hgo : (again (outcome index) && decide (index < retries)) = true := by
        have hagain := again_of_lt_lastAttempt again outcome retries hlt
        have hretry : index < retries := by omega
        simp [hagain, hretry]
      have hcount : lastAttempt again outcome retries - index =
          lastAttempt again outcome retries - (index + 1) + 1 := by omega
      rw [if_pos hgo, ih (index + 1) (by omega) hlt, hcount, List.range'_succ]
      rfl

theorem run_eq :
    run again outcome retries =
      (trace (lastAttempt again outcome retries),
        some (outcome (lastAttempt again outcome retries))) := by
  rw [run, List.range_eq_range',
    runOver_range' again outcome retries 0 (retries + 1) (by omega) (Nat.zero_le _), trace,
    List.range_eq_range', Nat.sub_zero]

theorem trace_succ (last : ℕ) :
    trace (last + 1) =
      (List.range last).flatMap (fun index => [.attempt, .pause index]) ++
        [.attempt, .pause last, .attempt] := by
  simp only [trace, List.range_succ, List.flatMap_append, List.flatMap_cons, List.flatMap_nil,
    List.append_nil, List.append_assoc, List.cons_append, List.nil_append]

theorem count_attempt_trace (last : ℕ) : (trace last).count .attempt = last + 1 := by
  induction last with
  | zero => rfl
  | succ last ih =>
    have hprev : ((List.range last).flatMap
        (fun index => [Event.attempt, Event.pause index])).count .attempt = last := by
      simpa [trace] using ih
    rw [trace_succ, List.count_append, hprev]
    rfl

end BoundedRetry
