import Iperf3Rs.RustText
import Mathlib.Data.List.Forall2

/-! Checks on label lists that the command line, the Pushgateway config and the Prometheus
encoder each make for themselves. A check of bytes against ASCII classes is the same check of
characters, since every byte of a longer character is outside them. -/

namespace Iperf3Rs

def isIdentifierStart (c : Char) : Bool := c.isAlpha || c == '_'

def isIdentifierRest (c : Char) : Bool := c.isAlphanum || c == '_'

def isIdentifier (name : String) : Bool :=
  match name.toList with
  | [] => false
  | first :: rest => isIdentifierStart first && rest.all isIdentifierRest

theorem isAlpha_iff {c : Char} : c.isAlpha = true ↔
    65 ≤ c.toNat ∧ c.toNat ≤ 90 ∨ 97 ≤ c.toNat ∧ c.toNat ≤ 122 := by
  have halpha : c.isAlpha = (c.isUpper || c.isLower) := rfl
  have hupper : c.isUpper = true ↔ 65 ≤ c.toNat ∧ c.toNat ≤ 90 := decide_eq_true_iff
  have hlower : c.isLower = true ↔ 97 ≤ c.toNat ∧ c.toNat ≤ 122 :=
    Bool.and_eq_true_iff.trans (and_congr decide_eq_true_iff decide_eq_true_iff)
  rw [halpha, Bool.or_eq_true, hupper, hlower]

theorem isIdentifierStart_iff {c : Char} : isIdentifierStart c = true ↔
    (65 ≤ c.toNat ∧ c.toNat ≤ 90 ∨ 97 ≤ c.toNat ∧ c.toNat ≤ 122) ∨ c.toNat = 95 := by
  have hline : c = '_' ↔ c.toNat = 95 := Char.toNat_inj.symm
  rw [isIdentifierStart, Bool.or_eq_true, isAlpha_iff, beq_iff_eq, hline]

theorem isIdentifierRest_iff {c : Char} : isIdentifierRest c = true ↔
    isIdentifierStart c = true ∨ 48 ≤ c.toNat ∧ c.toNat ≤ 57 := by
  have hdigit : c.isDigit = true ↔ 48 ≤ c.toNat ∧ c.toNat ≤ 57 := Char.isDigit_iff_toNat
  rw [isIdentifierRest, isIdentifierStart, Char.isAlphanum, Bool.or_eq_true, Bool.or_eq_true,
    Bool.or_eq_true, hdigit, or_right_comm]

theorem isIdentifierRest_of_start {c : Char} (h : isIdentifierStart c = true) :
    isIdentifierRest c = true := isIdentifierRest_iff.mpr (.inl h)

theorem isIdentifier_eq_true {name : String} : isIdentifier name = true ↔
    ∃ first rest, name.toList = first :: rest ∧ isIdentifierStart first = true ∧
      ∀ c ∈ rest, isIdentifierRest c = true := by
  rw [isIdentifier]
  cases name.toList with
  | nil => simp
  | cons first rest => simp

theorem isIdentifier_rest {name : String} (h : isIdentifier name = true) :
    ∀ c ∈ name.toList, isIdentifierRest c = true := by
  obtain ⟨first, rest, hname, hfirst, hrest⟩ := isIdentifier_eq_true.mp h
  intro c hc
  rw [hname] at hc
  rcases List.mem_cons.mp hc with rfl | hc
  · exact isIdentifierRest_of_start hfirst
  · exact hrest c hc

theorem not_mem_of_isIdentifier {name : String} {c : Char} (h : isIdentifier name = true)
    (hc : isIdentifierRest c = false) : c ∉ name.toList := by
  intro hmem
  rw [isIdentifier_rest h c hmem] at hc
  cases hc

theorem exists_of_forall₂ {α β : Type} {r : α → β → Prop} {l : List α} {l' : List β}
    (h : List.Forall₂ r l l') {b : β} (hb : b ∈ l') : ∃ a ∈ l, r a b := by
  induction h with
  | nil => cases hb
  | cons hr _ ih =>
    rcases List.mem_cons.mp hb with rfl | hb
    · exact ⟨_, List.mem_cons_self, hr⟩
    · obtain ⟨a, ha, hra⟩ := ih hb
      exact ⟨a, List.mem_cons_of_mem _ ha, hra⟩

theorem bind_eq_ok {ε α β : Type} {x : Except ε α} {f : α → Except ε β} {b : β} :
    (x >>= f) = .ok b ↔ ∃ a, x = .ok a ∧ f a = .ok b := by
  cases x with
  | error e => exact ⟨(fun h => by cases h), fun ⟨_, h, _⟩ => (by cases h)⟩
  | ok a => exact ⟨fun h => ⟨a, rfl, h⟩, fun ⟨_, ha, h⟩ => (by cases ha; exact h)⟩

theorem forM_eq_ok {ε α : Type} {f : α → Except ε Unit} {l : List α} :
    l.forM f = .ok () ↔ ∀ a ∈ l, f a = .ok () := by
  induction l with
  | nil => simp [pure, Except.pure]
  | cons a l ih =>
    have hcons : (a :: l).forM f = (f a >>= fun _ => l.forM f) := rfl
    rw [hcons, bind_eq_ok, List.forall_mem_cons, ← ih]
    constructor
    · rintro ⟨_, ha, hl⟩
      exact ⟨ha, hl⟩
    · rintro ⟨ha, hl⟩
      exact ⟨(), ha, hl⟩

section Duplicates

variable {ε : Type} (duplicate : String → ε)

/-- Every name is looked up among the names before it. -/
def rejectDuplicates : List (String × String) → List (String × String) → Except ε Unit
  | _, [] => .ok ()
  | previous, (name, value) :: rest =>
    if previous.any (·.1 == name) then .error (duplicate name)
    else rejectDuplicates (previous ++ [(name, value)]) rest

theorem rejectDuplicates_eq_ok (previous labels : List (String × String)) :
    rejectDuplicates duplicate previous labels = .ok () ↔
      (labels.map Prod.fst).Nodup ∧ ∀ name ∈ labels.map Prod.fst, name ∉ previous.map Prod.fst := by
  induction labels generalizing previous with
  | nil => simp [rejectDuplicates]
  | cons label rest ih =>
    obtain ⟨name, value⟩ := label
    have hany : previous.any (·.1 == name) = true ↔ name ∈ previous.map Prod.fst := by
      simp [List.any_eq_true]
    simp only [rejectDuplicates, List.map_cons, List.nodup_cons, List.forall_mem_cons]
    by_cases hmem : name ∈ previous.map Prod.fst
    · simp [hany.mpr hmem, hmem]
    · rw [if_neg (fun h => hmem (hany.mp h)), ih]
      simp only [List.map_append, List.map_cons, List.map_nil, List.mem_append,
        List.mem_singleton, not_or]
      constructor
      · rintro ⟨hnd, hall⟩
        exact ⟨⟨fun hn => (hall name hn).2 rfl, hnd⟩, hmem, fun n hn => (hall n hn).1⟩
      · rintro ⟨⟨hn, hnd⟩, -, hall⟩
        exact ⟨hnd, fun n hn' => ⟨hall n hn', fun he => hn (he ▸ hn')⟩⟩

theorem rejectDuplicates_nil_eq_ok (labels : List (String × String)) :
    rejectDuplicates duplicate [] labels = .ok () ↔ (labels.map Prod.fst).Nodup := by
  simp [rejectDuplicates_eq_ok]

end Duplicates

end Iperf3Rs
