import Iperf3Rs.RustText

/-! Compact JSON as a writer puts it out, one piece after the other. A
piece is a word of the output or a mark between two; the words are printable ASCII. -/

namespace Iperf3Rs

namespace JsonText

def isPlainChar (c : Char) : Bool := 32 ≤ c.toNat && c.toNat < 127

def isPlain (word : String) : Bool := word.toList.all isPlainChar

abbrev Pieces := List String

def quoted (word : String) : Pieces := ["\"", word, "\""]

def number (n : Int) : Pieces := [toString n]

def null : Pieces := ["null"]

def members : Bool → List (String × Pieces) → Pieces
  | _, [] => []
  | first, (key, value) :: rest =>
    (if first then [] else [","]) ++ quoted key ++ [":"] ++ value ++ members false rest

def object (fields : List (String × Pieces)) : Pieces :=
  "\x7b" :: (members true fields ++ ["\x7d"])

def bytes (pieces : Pieces) : List UInt8 := pieces.flatMap Text.bytes

example : String.join (object [("a", ["1"]), ("b", quoted "x")]) =
    "\x7b\"a\":1,\"b\":\"x\"\x7d" := by decide

def PlainPieces (pieces : Pieces) : Prop := ∀ word ∈ pieces, isPlain word = true

theorem PlainPieces.append {left right : Pieces} (hl : PlainPieces left)
    (hr : PlainPieces right) : PlainPieces (left ++ right) := by
  intro word hword
  rcases List.mem_append.mp hword with hword | hword
  · exact hl word hword
  · exact hr word hword

theorem plainPieces_singleton {w : String} (h : isPlain w = true) : PlainPieces [w] := by
  intro other hother
  rwa [List.mem_singleton.mp hother]

theorem plainPieces_quoted {word : String} (h : isPlain word = true) :
    PlainPieces (quoted word) := by
  intro other hother
  simp only [quoted, List.mem_cons, List.not_mem_nil, or_false] at hother
  rcases hother with rfl | rfl | rfl
  · decide
  · exact h
  · decide

theorem isPlain_nat (n : ℕ) : isPlain (toString n) = true := by
  refine List.all_eq_true.mpr fun c hc => ?_
  have hrange : 48 ≤ c.toNat ∧ c.toNat ≤ 57 :=
    Char.isDigit_iff_toNat.mp (Text.isDigit_toString n c hc)
  simp only [isPlainChar, Bool.and_eq_true, decide_eq_true_eq]
  omega

theorem isPlain_int (n : Int) : isPlain (toString n) = true := by
  cases n with
  | ofNat n => exact isPlain_nat n
  | negSucc n =>
    have htext : (toString (Int.negSucc n)).toList = '-' :: (toString (n + 1)).toList := by
      change ("-" ++ (n + 1).repr).toList = _
      rw [String.toList_append, Nat.toString_eq_repr]
      rfl
    have hnat := isPlain_nat (n + 1)
    rw [isPlain] at hnat ⊢
    rw [htext, List.all_cons, hnat]
    decide

theorem plainPieces_number (n : Int) : PlainPieces (number n) :=
  plainPieces_singleton (isPlain_int n)

theorem plainPieces_null : PlainPieces null := plainPieces_singleton (by decide)

/-- Every key is a plain word, and so is every piece of the values. -/
def PlainFields (fields : List (String × Pieces)) : Prop :=
  ∀ field ∈ fields, isPlain field.1 = true ∧ PlainPieces field.2

theorem plainPieces_members {fields : List (String × Pieces)} (h : PlainFields fields)
    (first : Bool) : PlainPieces (members first fields) := by
  induction fields generalizing first with
  | nil => exact fun _ hword => by cases hword
  | cons field rest ih =>
    obtain ⟨hkey, hvalue⟩ := h field List.mem_cons_self
    have hrest := ih (fun other hother => h other (List.mem_cons_of_mem _ hother)) false
    have hmark : PlainPieces (if first then [] else [","]) := by
      cases first
      · exact plainPieces_singleton (by decide)
      · exact fun _ hword => by cases hword
    exact (((hmark.append (plainPieces_quoted hkey)).append
      (plainPieces_singleton (by decide))).append hvalue).append hrest

theorem plainPieces_object {fields : List (String × Pieces)} (h : PlainFields fields) :
    PlainPieces (object fields) :=
  (plainPieces_singleton (w := "\x7b") (by decide)).append
    ((plainPieces_members h true).append (plainPieces_singleton (by decide)))

def newline : UInt8 := 10

theorem newline_not_mem_char {c : Char} (h : isPlainChar c = true) :
    newline ∉ String.utf8EncodeChar c := by
  simp only [isPlainChar, Bool.and_eq_true, decide_eq_true_eq] at h
  have htable : ∀ n < 127, 32 ≤ n → newline ∉ String.utf8EncodeChar (Char.ofNat n) := by decide
  have hc := htable c.toNat h.2 h.1
  rwa [Char.ofNat_toNat] at hc

theorem newline_not_mem_bytes {pieces : Pieces} (h : PlainPieces pieces) :
    newline ∉ bytes pieces := by
  intro hmem
  simp only [bytes, Text.bytes, List.mem_flatMap] at hmem
  obtain ⟨word, hword, c, hc, hmem⟩ := hmem
  exact newline_not_mem_char (List.all_eq_true.mp (h word hword) c hc) hmem

end JsonText

end Iperf3Rs
