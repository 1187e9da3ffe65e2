import Mathlib.Data.List.Forall2
import Mathlib.Data.List.TakeWhile

/-! Reading JSON: objects of named values, numbers as they are written, strings without escapes,
and the three literals. White space may stand around every token. -/

namespace JsonSyntax

inductive Json where
  | null
  | bool (value : Bool)
  | number (literal : String)
  | string (text : String)
  | object (members : List (String × Json))

def isBlank (c : Char) : Bool := c = ' ' || c = '\t' || c = '\n' || c = '\r'

def skip (s : List Char) : List Char := s.dropWhile isBlank

def dropSign : List Char → List Char
  | '+' :: rest | '-' :: rest => rest
  | s => s

def isExponent : List Char → Bool
  | [] => true
  | c :: rest =>
    (c = 'e' || c = 'E') && !(dropSign rest).isEmpty && (dropSign rest).all Char.isDigit

def isFraction : List Char → Bool
  | '.' :: rest => !(rest.takeWhile Char.isDigit).isEmpty && isExponent (rest.dropWhile Char.isDigit)
  | s => isExponent s

def isMagnitude : List Char → Bool
  | '0' :: rest => isFraction rest
  | c :: rest => c.isDigit && isFraction (rest.dropWhile Char.isDigit)
  | [] => false

/-- The grammar of numbers. -/
def isNumber : List Char → Bool
  | '-' :: rest => isMagnitude rest
  | s => isMagnitude s

def isNumberChar (c : Char) : Bool :=
  c.isDigit || c = '-' || c = '+' || c = '.' || c = 'e' || c = 'E'

/-- A character that stands for itself in a string. -/
def isTextChar (c : Char) : Bool := c != '"' && c != '\\' && 32 ≤ c.toNat

/-- A string behind its opening quote. -/
def scanString (s : List Char) : Option (String × List Char) :=
  match s.dropWhile isTextChar with
  | '"' :: rest => some (.ofList (s.takeWhile isTextChar), rest)
  | _ => none

def literals : List (List Char × Json) :=
  [("null".toList, .null), ("true".toList, .bool true), ("false".toList, .bool false)]

def scanWord (s : List Char) : Option (Json × List Char) :=
  match literals.find? fun literal => literal.1.isPrefixOf s with
  | some (word, value) => some (value, s.drop word.length)
  | none =>
    if isNumber (s.takeWhile isNumberChar) then
      some (.number (.ofList (s.takeWhile isNumberChar)), s.dropWhile isNumberChar)
    else none

mutual

def parseValue : ℕ → List Char → Option (Json × List Char)
  | 0, _ => none
  | fuel + 1, s =>
    match skip s with
    | '"' :: rest => (scanString rest).map fun (text, rest) => (.string text, rest)
    | '{' :: rest =>
      match skip rest with
      | '}' :: rest => some (.object [], rest)
      | rest => (parseMembers fuel rest).map fun (members, rest) => (.object members, rest)
    | rest => scanWord rest

def parseMembers : ℕ → List Char → Option (List (String × Json) × List Char)
  | 0, _ => none
  | fuel + 1, s => do
    let '"' :: s := skip s | none
    let (key, s) ← scanString s
    let ':' :: s := skip s | none
    let (value, s) ← parseValue fuel s
    match skip s with
    | ',' :: s => (parseMembers fuel s).map fun (members, s) => ((key, value) :: members, s)
    | '}' :: s => some ([(key, value)], s)
    | _ => none

end

/-- What `parseMembers` does behind a member. -/
def parseMore (fuel : ℕ) (member : String × Json) (s : List Char) :
    Option (List (String × Json) × List Char) :=
  match skip s with
  | ',' :: s => (parseMembers fuel s).map fun (members, s) => (member :: members, s)
  | '}' :: s => some ([member], s)
  | _ => none

/-- A text that is one value. -/
def parse (s : List Char) : Option Json :=
  match parseValue (s.length + 1) s with
  | some (value, rest) => if skip rest = [] then some value else none
  | none => none

/-- What may stand behind a value inside an object. -/
def Stops (rest : List Char) : Prop := ∀ c ∈ rest.head?, c = ',' ∨ c = '}'

/-- The text is read as the value, whatever stands behind it. -/
def Denotes (text : List Char) (value : Json) : Prop :=
  ∀ fuel rest, text.length < fuel → Stops rest →
    parseValue fuel (text ++ rest) = some (value, rest)

theorem skip_cons {c : Char} (h : isBlank c = false) (s : List Char) : skip (c :: s) = c :: s := by
  simp [skip, h]

theorem stops_comma (rest : List Char) : Stops (',' :: rest) := by
  simp [Stops]

theorem stops_brace (rest : List Char) : Stops ('}' :: rest) := by
  simp [Stops]

theorem parse_of_denotes {text : List Char} {value : Json} (h : Denotes text value) :
    parse text = some value := by
  have hparse := h (text.length + 1) [] (Nat.lt_succ_self _) (by simp [Stops])
  rw [List.append_nil] at hparse
  rw [parse, hparse]
  rfl

theorem scanString_append {text : List Char} (h : ∀ c ∈ text, isTextChar c = true)
    (rest : List Char) : scanString (text ++ '"' :: rest) = some (.ofList text, rest) := by
  have hdrop : (text ++ '"' :: rest).dropWhile isTextChar = '"' :: rest := by
    rw [List.dropWhile_append_of_pos h]
    rfl
  have htake : (text ++ '"' :: rest).takeWhile isTextChar = text := by
    rw [List.takeWhile_append_of_pos h]
    exact List.append_nil _
  rw [scanString, hdrop, htake]
  rfl

theorem denotes_string {text : String} (h : ∀ c ∈ text.toList, isTextChar c = true) :
    Denotes ('"' :: (text.toList ++ ['"'])) (.string text) := by
  intro fuel rest hfuel hrest
  cases fuel with
  | zero => cases hfuel
  | succ fuel =>
    have hscan := scanString_append h rest
    simp only [List.cons_append, List.append_assoc, parseValue,
      skip_cons (show isBlank '"' = false by decide)]
    rw [List.nil_append, hscan, String.ofList_toList]
    rfl

/-- A value that is neither a string nor an object starts with another character. -/
theorem parseValue_word {c : Char} (hblank : isBlank c = false) (hquote : c ≠ '"')
    (hbrace : c ≠ '{') (fuel : ℕ) (s : List Char) :
    parseValue (fuel + 1) (c :: s) = scanWord (c :: s) := by
  rw [parseValue, skip_cons hblank]
  split
  · next rest heq => exact absurd (List.cons.inj heq).1 hquote
  · next rest heq => exact absurd (List.cons.inj heq).1 hbrace
  · rfl

theorem denotes_null : Denotes "null".toList .null := by
  intro fuel rest hfuel hrest
  cases fuel with
  | zero => cases hfuel
  | succ fuel => exact parseValue_word (by decide) (by decide) (by decide) fuel _

theorem denotes_bool (value : Bool) :
    Denotes (if value then "true" else "false").toList (.bool value) := by
  intro fuel rest hfuel hrest
  cases fuel with
  | zero => cases hfuel
  | succ fuel =>
    cases value
    · exact parseValue_word (by decide) (by decide) (by decide) fuel _
    · exact parseValue_word (by decide) (by decide) (by decide) fuel _

section Number

theorem isNumberChar_of_isDigit {c : Char} (h : c.isDigit = true) : isNumberChar c = true := by
  simp [isNumberChar, h]

theorem all_dropSign {s : List Char} (h : (dropSign s).all isNumberChar = true) :
    s.all isNumberChar = true := by
  match s with
  | [] => rfl
  | c :: rest =>
    by_cases hsign : c = '+' ∨ c = '-'
    · rcases hsign with rfl | rfl
      · simpa [dropSign, isNumberChar] using h
      · simpa [dropSign, isNumberChar] using h
    · have hsame : dropSign (c :: rest) = c :: rest := by
        rw [not_or] at hsign
        unfold dropSign
        split <;> simp_all
      rwa [hsame] at h

theorem all_of_dropWhile {s : List Char}
    (h : (s.dropWhile Char.isDigit).all isNumberChar = true) : s.all isNumberChar = true := by
  rw [← List.takeWhile_append_dropWhile (p := Char.isDigit) (l := s), List.all_append, h,
    Bool.and_true]
  exact List.all_eq_true.mpr fun c hc =>
    isNumberChar_of_isDigit (List.mem_takeWhile_imp hc)

theorem all_of_isExponent {s : List Char} (h : isExponent s = true) :
    s.all isNumberChar = true := by
  cases s with
  | nil => rfl
  | cons c rest =>
    simp only [isExponent, Bool.and_eq_true, Bool.or_eq_true, decide_eq_true_eq] at h
    obtain ⟨⟨hc, -⟩, hdigits⟩ := h
    have hrest : rest.all isNumberChar = true := all_dropSign (List.all_eq_true.mpr fun d hd =>
      isNumberChar_of_isDigit (List.all_eq_true.mp hdigits d hd))
    rw [List.all_cons, hrest, Bool.and_true]
    rcases hc with rfl | rfl <;> decide

theorem all_of_isFraction {s : List Char} (h : isFraction s = true) :
    s.all isNumberChar = true := by
  unfold isFraction at h
  split at h
  · next rest =>
    have hrest := all_of_dropWhile (all_of_isExponent (Bool.and_eq_true _ _ ▸ h).2)
    rw [List.all_cons, hrest]
    decide
  · exact all_of_isExponent h

theorem all_of_isMagnitude {s : List Char} (h : isMagnitude s = true) :
    s.all isNumberChar = true := by
  unfold isMagnitude at h
  split at h
  · next rest =>
    rw [List.all_cons, all_of_isFraction h]
    decide
  · next c rest _ =>
    rw [Bool.and_eq_true] at h
    rw [List.all_cons, all_of_dropWhile (all_of_isFraction h.2), isNumberChar_of_isDigit h.1]
    rfl
  · rfl

theorem all_of_isNumber {s : List Char} (h : isNumber s = true) : s.all isNumberChar = true := by
  unfold isNumber at h
  split at h
  · next rest =>
    rw [List.all_cons, all_of_isMagnitude h]
    decide
  · exact all_of_isMagnitude h

theorem takeWhile_stops {rest : List Char} (h : Stops rest) :
    rest.takeWhile isNumberChar = [] ∧ rest.dropWhile isNumberChar = rest := by
  cases rest with
  | nil => exact ⟨rfl, rfl⟩
  | cons c rest =>
    have hc : isNumberChar c = false := by
      rcases h c rfl with rfl | rfl <;> decide
    exact ⟨List.takeWhile_cons_of_neg (by simp [hc]), List.dropWhile_cons_of_neg (by simp [hc])⟩

theorem numberChar_apart {c : Char} (h : isNumberChar c = true) : isBlank c = false ∧ c ≠ '"' ∧
    c ≠ '{' ∧ c ≠ 'n' ∧ c ≠ 't' ∧ c ≠ 'f' := by
  have hne : ∀ d, isNumberChar d = false → c ≠ d := by
    rintro d hd rfl
    cases h.symm.trans hd
  refine ⟨?_, hne _ (by decide), hne _ (by decide), hne _ (by decide), hne _ (by decide),
    hne _ (by decide)⟩
  simp [isBlank, hne ' ' (by decide), hne '\t' (by decide), hne '\n' (by decide),
    hne '\r' (by decide)]

theorem denotes_number {text : String} (h : isNumber text.toList = true) :
    Denotes text.toList (.number text) := by
  intro fuel rest hfuel hrest
  have hall := List.all_eq_true.mp (all_of_isNumber h)
  have htake : (text.toList ++ rest).takeWhile isNumberChar = text.toList := by
    rw [List.takeWhile_append_of_pos hall, (takeWhile_stops hrest).1, List.append_nil]
  have hdrop : (text.toList ++ rest).dropWhile isNumberChar = rest := by
    rw [List.dropWhile_append_of_pos hall, (takeWhile_stops hrest).2]
  have hscan : literals.find? (fun literal => literal.1.isPrefixOf (text.toList ++ rest)) = none →
      scanWord (text.toList ++ rest) = some (.number text, rest) := by
    intro hnone
    rw [scanWord, hnone, htake, hdrop]
    simp [h]
  cases fuel with
  | zero => cases hfuel
  | succ fuel =>
    cases htext : text.toList with
    | nil =>
      rw [htext] at h
      cases h
    | cons c s =>
      obtain ⟨hblank, hquote, hbrace, hn, ht, hf⟩ :=
        numberChar_apart (hall c (by rw [htext]; exact List.mem_cons_self))
      rw [htext] at hscan
      rw [List.cons_append, parseValue_word hblank hquote hbrace]
      refine hscan ?_
      simp [literals, hn.symm, ht.symm, hf.symm]

end Number

section Object

/-- The members of an object as they are written, a comma between two. -/
def membersText : List (String × List Char) → List Char
  | [] => []
  | [(key, text)] => '"' :: (key.toList ++ '"' :: ':' :: text)
  | (key, text) :: members =>
    '"' :: (key.toList ++ '"' :: ':' :: (text ++ ',' :: membersText members))

theorem parseMembers_text {key : String} {text : List Char} {value : Json}
    (hkey : ∀ c ∈ key.toList, isTextChar c = true) (hvalue : Denotes text value)
    {fuel : ℕ} (hfuel : text.length < fuel) {rest : List Char} (hrest : Stops rest) :
    parseMembers (fuel + 1) ('"' :: (key.toList ++ '"' :: ':' :: (text ++ rest))) =
      parseMore fuel (key, value) rest := by
  rw [parseMembers, skip_cons (by decide)]
  simp only [scanString_append hkey, String.ofList_toList, Option.bind_eq_bind, Option.bind_some,
    skip_cons (show isBlank ':' = false by decide), hvalue fuel rest hfuel hrest]
  rfl

/-- A member and what it is read as. -/
def DenotesMember (member : String × List Char) (read : String × Json) : Prop :=
  (∀ c ∈ member.1.toList, isTextChar c = true) ∧ read.1 = member.1 ∧ Denotes member.2 read.2

theorem parseMembers_membersText {members : List (String × List Char)}
    {values : List (String × Json)} (h : List.Forall₂ DenotesMember members values)
    (hne : members ≠ []) (fuel : ℕ) (hfuel : (membersText members).length < fuel)
    (rest : List Char) :
    parseMembers fuel (membersText members ++ '}' :: rest) = some (values, rest) := by
  induction h generalizing fuel with
  | nil => exact absurd rfl hne
  | @cons member read members values hmember hmembers ih =>
    obtain ⟨key, text⟩ := member
    obtain ⟨key', value⟩ := read
    obtain ⟨hkey, rfl, hvalue⟩ := hmember
    cases fuel with
    | zero => cases hfuel
    | succ fuel =>
      cases members with
      | nil =>
        cases hmembers
        simp only [membersText, List.length_cons, List.length_append] at hfuel
        simp only [membersText, List.cons_append, List.append_assoc]
        have htext : text.length < fuel := by omega
        rw [parseMembers_text hkey hvalue htext (stops_brace rest), parseMore, skip_cons (by decide)]
        rfl
      | cons next members =>
        simp only [membersText, List.length_cons, List.length_append] at hfuel
        have hlater := ih (List.cons_ne_nil _ _) fuel (by omega)
        simp only [membersText, List.cons_append, List.append_assoc]
        have htext : text.length < fuel := by omega
        rw [parseMembers_text hkey hvalue htext (stops_comma _), parseMore, skip_cons (by decide)]
        show (parseMembers fuel (membersText (next :: members) ++ '}' :: rest)).map _ = _
        rw [hlater]
        rfl

theorem denotes_object {members : List (String × List Char)} {values : List (String × Json)}
    (h : List.Forall₂ DenotesMember members values) :
    Denotes ('{' :: (membersText members ++ ['}'])) (.object values) := by
  intro fuel rest hfuel hrest
  cases fuel with
  | zero => cases hfuel
  | succ fuel =>
    simp only [List.length_cons, List.length_append, List.length_nil] at hfuel
    rw [List.cons_append, List.append_assoc, parseValue, skip_cons (by decide)]
    cases h with
    | nil => rfl
    | @cons member read members values hmember hmembers =>
      have hparse := parseMembers_membersText (.cons hmember hmembers) (List.cons_ne_nil _ _)
        fuel (by omega) rest
      have hquote : ∃ s, membersText (member :: members) = '"' :: s := by
        cases members <;> exact ⟨_, rfl⟩
      obtain ⟨s, hs⟩ := hquote
      rw [hs, List.cons_append] at hparse
      simp only [hs, List.cons_append, skip_cons (show isBlank '"' = false by decide)]
      show (parseMembers fuel ('"' :: (s ++ '}' :: rest))).map _ = _
      rw [hparse]
      rfl

end Object

end JsonSyntax
