import Mathlib.Data.List.Basic

/-! Texts made of lines, each with a terminator behind it. -/

namespace LineText

variable {α : Type*}

def lines (closing : α) (texts : List (List α)) : List α := texts.flatMap (· ++ [closing])

@[simp] theorem lines_nil (closing : α) : lines closing [] = [] := rfl

theorem lines_append (closing : α) (texts later : List (List α)) :
    lines closing (texts ++ later) = lines closing texts ++ lines closing later :=
  List.flatMap_append

theorem lines_singleton (closing : α) (text : List α) :
    lines closing [text] = text ++ [closing] := by
  simp [lines]

/-- What stands between the terminators is what has been written. -/
theorem splitOn_lines [DecidableEq α] {closing : α} {texts : List (List α)}
    (h : ∀ text ∈ texts, closing ∉ text) :
    (lines closing texts).splitOn closing = texts ++ [[]] := by
  induction texts with
  | nil => rfl
  | cons text texts ih =>
    rw [lines, List.flatMap_cons, List.append_assoc, List.singleton_append,
      List.splitOn_append_cons_self_of_not_mem (h text List.mem_cons_self)]
    exact congrArg (text :: ·) (ih fun t ht => h t (List.mem_cons_of_mem _ ht))

theorem intercalate_closed (closing : α) (texts : List (List α)) :
    [closing].intercalate (texts ++ [[]]) = lines closing texts := by
  induction texts with
  | nil => rfl
  | cons text texts ih =>
    have hne : texts ++ [[]] ≠ [] := by simp
    rw [List.cons_append, List.intercalate_cons_of_ne_nil hne, ih]
    rfl

/-- A text that ends behind a terminator is made of the lines before it. -/
theorem eq_lines_of_splitOn [DecidableEq α] {closing : α} {text : List α}
    (h : (text.splitOn closing).getLast? = some []) :
    text = lines closing (text.splitOn closing).dropLast := by
  rw [← intercalate_closed, List.dropLast_append_getLast? [] h, List.intercalate_splitOn]

end LineText
