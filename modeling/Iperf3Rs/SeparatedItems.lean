import Mathlib.Data.List.Forall2

/-! Lists of items with a separator between them, read by any reader of an item that may fail. -/

namespace SeparatedItems

variable {α β γ ε : Type*}

theorem mapM_eq_ok {f : γ → Except ε β} {l : List γ} {values : List β} :
    l.mapM f = .ok values ↔ List.Forall₂ (fun a b => f a = .ok b) l values := by
  induction l generalizing values with
  | nil =>
    rw [List.forall₂_nil_left_iff]
    constructor
    · rintro ⟨⟩
      rfl
    · rintro rfl
      rfl
  | cons a l ih =>
    rw [List.mapM_cons, List.forall₂_cons_left_iff]
    cases ha : f a with
    | error e =>
      constructor
      · intro h
        cases h
      · rintro ⟨_, _, hb, -⟩
        cases hb
    | ok b =>
      cases hl : l.mapM f with
      | error e =>
        constructor
        · intro h
          cases h
        · rintro ⟨_, _, -, hrest, -⟩
          rw [← ih, hl] at hrest
          cases hrest
      | ok later =>
        constructor
        · intro h
          cases h
          exact ⟨b, later, rfl, ih.mp hl, rfl⟩
        · rintro ⟨_, _, hb, hrest, rfl⟩
          rw [← ih, hl] at hrest
          cases hb
          cases hrest
          rfl

theorem intercalate_cons (separator : α) (first : List α) (rest : List (List α)) :
    [separator].intercalate (first :: rest) = first ++ rest.flatMap (separator :: ·) := by
  induction rest generalizing first with
  | nil => simp
  | cons second rest ih =>
    rw [List.intercalate_cons_cons, ih]
    simp

section Parse

variable [BEq α] [LawfulBEq α] (separator : α) (item : List α → Except ε β)

def parse (text : List α) : Except ε (List β) := (text.splitOn separator).mapM item

variable {separator item}

theorem separator_not_mem {text piece : List α} (h : piece ∈ text.splitOn separator) :
    separator ∉ piece := by
  induction text generalizing piece with
  | nil =>
    rw [List.splitOn_nil, List.mem_singleton] at h
    subst h
    exact List.not_mem_nil
  | cons a text ih =>
    obtain ⟨first, rest, hsplit⟩ := List.exists_cons_of_ne_nil (List.splitOn_ne_nil separator text)
    rw [List.splitOn_cons_eq_if_modifyHead, hsplit] at h
    rw [hsplit] at ih
    by_cases ha : (a == separator) = true
    · rw [if_pos ha] at h
      rcases List.mem_cons.mp h with rfl | h
      · exact List.not_mem_nil
      · exact ih h
    · rw [if_neg ha, List.modifyHead_cons] at h
      rcases List.mem_cons.mp h with rfl | h
      · rw [List.mem_cons, not_or]
        refine ⟨?_, ih List.mem_cons_self⟩
        rintro rfl
        exact ha BEq.rfl
      · exact ih (List.mem_cons_of_mem _ h)

/-- A separator joins two texts, and their items. -/
theorem parse_append {left right : List α} {values : List β} :
    parse separator item (left ++ separator :: right) = .ok values ↔
      ∃ xs ys, parse separator item left = .ok xs ∧ parse separator item right = .ok ys ∧
        values = xs ++ ys := by
  simp only [parse, List.splitOn_append_cons_self, mapM_eq_ok]
  constructor
  · intro h
    exact ⟨_, _, (List.forall₂_take_append _ _ _ h.flip).flip,
      (List.forall₂_drop_append _ _ _ h.flip).flip, (List.take_append_drop _ _).symm⟩
  · rintro ⟨xs, ys, hleft, hright, rfl⟩
    exact List.rel_append hleft hright

theorem parse_intercalate {pieces : List (List α)} (hne : pieces ≠ [])
    (hpieces : ∀ piece ∈ pieces, separator ∉ piece) {values : List β} :
    parse separator item ([separator].intercalate pieces) = .ok values ↔
      List.Forall₂ (fun piece value => item piece = .ok value) pieces values := by
  rw [parse, List.splitOn_intercalate separator hpieces hne, mapM_eq_ok]

end Parse

end SeparatedItems
