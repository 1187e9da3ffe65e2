import Mathlib.Data.List.Induction

/-! Folds whose steps carry a key. Steps of different keys commute, so the result depends only on
the steps of each key in order, and a field that one key writes only on the steps of that key. -/

namespace KeyedFold

variable {α β κ : Type} {f : β → α → β} {key : α → κ}

theorem foldl_move (hcomm : ∀ b x y, key x ≠ key y → f (f b x) y = f (f b y) x) {step : α}
    {front : List α} (hfront : ∀ x ∈ front, key x ≠ key step) (b : β) (back : List α) :
    (front ++ step :: back).foldl f b = (step :: (front ++ back)).foldl f b := by
  induction front generalizing b with
  | nil => rfl
  | cons x front ih =>
    have hx : key x ≠ key step := hfront x (by simp)
    have hrest := ih (fun y hy => hfront y (by simp [hy])) (f b x)
    simp only [List.cons_append, List.foldl_cons] at hrest ⊢
    rw [hrest, hcomm b x step hx]

variable [DecidableEq κ]

def ofKey (key : α → κ) (k : κ) (steps : List α) : List α := steps.filter (key · = k)

@[simp] theorem ofKey_nil (k : κ) : ofKey key k [] = [] := rfl

theorem ofKey_append (k : κ) (front back : List α) :
    ofKey key k (front ++ back) = ofKey key k front ++ ofKey key k back :=
  List.filter_append ..

theorem ofKey_cons_self (key : α → κ) (step : α) (steps : List α) :
    ofKey key (key step) (step :: steps) = step :: ofKey key (key step) steps := by
  simp [ofKey]

theorem ofKey_cons_ne {step : α} {k : κ} (h : key step ≠ k) (steps : List α) :
    ofKey key k (step :: steps) = ofKey key k steps := by
  simp [ofKey, h]

theorem exists_split_of_ofKey {k : κ} {step : α} {steps later : List α}
    (h : ofKey key k steps = step :: later) :
    ∃ front back, steps = front ++ step :: back ∧ (∀ x ∈ front, key x ≠ k) ∧ key step = k := by
  obtain ⟨front, back, rfl, hfront, hstep, -⟩ := List.filter_eq_cons_iff.mp h
  exact ⟨front, back, rfl, fun x hx => by simpa using hfront x hx, by simpa using hstep⟩

theorem foldl_eq_of_ofKey_eq (hcomm : ∀ b x y, key x ≠ key y → f (f b x) y = f (f b y) x)
    {steps steps' : List α} (h : ∀ k, ofKey key k steps = ofKey key k steps') (b : β) :
    steps.foldl f b = steps'.foldl f b := by
  induction steps generalizing steps' b with
  | nil =>
    cases steps' with
    | nil => rfl
    | cons x steps' =>
      have hx := h (key x)
      rw [ofKey_cons_self] at hx
      cases hx
  | cons x steps ih =>
    have hx := h (key x)
    rw [ofKey_cons_self] at hx
    obtain ⟨front, back, rfl, hfront, -⟩ := exists_split_of_ofKey hx.symm
    rw [foldl_move hcomm hfront, List.foldl_cons, List.foldl_cons]
    refine ih (fun k => ?_) (f b x)
    have hk := h k
    rw [ofKey_append] at hk
    by_cases hxk : key x = k
    · subst hxk
      have hnone : ofKey key (key x) front = [] := by
        simpa [ofKey] using hfront
      rw [ofKey_cons_self, ofKey_cons_self, hnone, List.nil_append, List.cons.injEq] at hk
      rw [ofKey_append, hnone, hk.2, List.nil_append]
    · rw [ofKey_cons_ne hxk, ofKey_cons_ne hxk] at hk
      rw [ofKey_append, hk]

section Field

variable {γ : Type} {k : κ}

/-- The last step of the key decides a field that each of them overwrites. -/
theorem field_foldl_of_overwrite (field : β → γ) {value : α → γ}
    (hset : ∀ b x, key x = k → field (f b x) = value x)
    (hkeep : ∀ b x, key x ≠ k → field (f b x) = field b) (steps : List α) (b : β) :
    field (steps.foldl f b) = ((ofKey key k steps).getLast?.map value).getD (field b) := by
  induction steps using List.reverseRecOn with
  | nil => rfl
  | append_singleton steps x ih =>
    rw [List.foldl_append, ofKey_append]
    by_cases hx : key x = k
    · have hone : ofKey key k [x] = [x] := by simp [ofKey, hx]
      simp [hone, hset _ x hx]
    · have hnone : ofKey key k [x] = [] := by simp [ofKey, hx]
      rw [hnone, List.append_nil, ← ih]
      exact hkeep _ x hx

/-- The steps of the key add to a field in their order. -/
theorem field_foldl_of_append (field : β → List γ) {value : α → List γ}
    (hset : ∀ b x, key x = k → field (f b x) = field b ++ value x)
    (hkeep : ∀ b x, key x ≠ k → field (f b x) = field b) (steps : List α) (b : β) :
    field (steps.foldl f b) = field b ++ (ofKey key k steps).flatMap value := by
  induction steps generalizing b with
  | nil => simp
  | cons x steps ih =>
    rw [List.foldl_cons, ih]
    by_cases hx : key x = k
    · subst hx
      rw [hset b x rfl, ofKey_cons_self, List.flatMap_cons, List.append_assoc]
    · rw [hkeep b x hx, ofKey_cons_ne hx]

end Field

end KeyedFold
