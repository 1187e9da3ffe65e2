import Mathlib.Computability.RegularExpressions

/-! Regular expressions whose letters are classes of symbols. -/

namespace SymbolClass

variable {α : Type*}

def oneOf (symbols : List α) : RegularExpression α := (symbols.map .char).sum

/-- A symbol of one class, then any number of symbols of another. -/
def leadThen (lead rest : List α) : RegularExpression α := oneOf lead * (oneOf rest).star

theorem mem_oneOf {symbols word : List α} :
    word ∈ (oneOf symbols).matches' ↔ ∃ a ∈ symbols, word = [a] := by
  induction symbols with
  | nil =>
    constructor
    · intro h
      cases h
    · rintro ⟨a, ha, -⟩
      cases ha
  | cons b symbols ih =>
    have hsum : oneOf (b :: symbols) = .char b + oneOf symbols := List.sum_cons
    rw [hsum, RegularExpression.matches'_add, Language.mem_add, ih]
    constructor
    · rintro (hb | ⟨a, ha, hword⟩)
      · exact ⟨b, List.mem_cons_self, hb⟩
      · exact ⟨a, List.mem_cons_of_mem _ ha, hword⟩
    · rintro ⟨a, ha, hword⟩
      rcases List.mem_cons.mp ha with rfl | ha
      · exact .inl hword
      · exact .inr ⟨a, ha, hword⟩

theorem mem_star_oneOf {symbols word : List α} :
    word ∈ (oneOf symbols).star.matches' ↔ ∀ a ∈ word, a ∈ symbols := by
  rw [RegularExpression.matches'_star, Language.mem_kstar]
  constructor
  · rintro ⟨pieces, rfl, hpieces⟩ a ha
    obtain ⟨piece, hpiece, ha⟩ := List.mem_flatten.mp ha
    obtain ⟨b, hb, rfl⟩ := mem_oneOf.mp (hpieces piece hpiece)
    obtain rfl := List.mem_singleton.mp ha
    exact hb
  · intro h
    refine ⟨word.map fun a => [a], ?_, fun piece hpiece => ?_⟩
    · rw [← List.flatMap_def, List.flatMap_singleton']
    · obtain ⟨a, ha, rfl⟩ := List.mem_map.mp hpiece
      exact mem_oneOf.mpr ⟨a, h a ha, rfl⟩

theorem mem_leadThen {lead rest word : List α} :
    word ∈ (leadThen lead rest).matches' ↔
      ∃ a later, word = a :: later ∧ a ∈ lead ∧ ∀ b ∈ later, b ∈ rest := by
  rw [leadThen, RegularExpression.matches'_mul, Language.mem_mul]
  constructor
  · rintro ⟨front, hfront, later, hlater, rfl⟩
    obtain ⟨a, ha, rfl⟩ := mem_oneOf.mp hfront
    exact ⟨a, later, rfl, ha, mem_star_oneOf.mp hlater⟩
  · rintro ⟨a, later, rfl, ha, hlater⟩
    exact ⟨[a], mem_oneOf.mpr ⟨a, ha, rfl⟩, later, mem_star_oneOf.mpr hlater, rfl⟩

end SymbolClass
