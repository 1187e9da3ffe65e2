import Mathlib.Data.List.Basic
import Mathlib.Data.List.TakeWhile

/-! The string functions of Rust's standard library that the parsers use, on the characters of a
string. White space and control characters are those of Unicode. -/

namespace Iperf3Rs

namespace Text

def isWhitespace (c : Char) : Bool :=
  let n := c.toNat
  (9 ≤ n && n ≤ 13) || n == 0x20 || n == 0x85 || n == 0xA0 || n == 0x1680 ||
    (0x2000 ≤ n && n ≤ 0x200A) || n == 0x2028 || n == 0x2029 || n == 0x202F || n == 0x205F ||
    n == 0x3000

def isControl (c : Char) : Bool := c.toNat < 0x20 || (0x7F ≤ c.toNat && c.toNat ≤ 0x9F)

def trimChars (l : List Char) : List Char :=
  ((l.dropWhile isWhitespace).reverse.dropWhile isWhitespace).reverse

def trim (s : String) : String := .ofList (trimChars s.toList)

def splitOnce (c : Char) (s : String) : Option (String × String) :=
  match s.toList.dropWhile (· != c) with
  | _ :: after => some (.ofList (s.toList.takeWhile (· != c)), .ofList after)
  | [] => none

def split (c : Char) (s : String) : List String := (s.toList.splitOn c).map .ofList

def startsWith (s start : String) : Bool := start.toList.isPrefixOf s.toList

def stripSuffix (s suffix : String) : Option String :=
  if suffix.toList.isSuffixOf s.toList then
    some (.ofList (s.toList.take (s.toList.length - suffix.toList.length)))
  else none

def decimal (digits : List Char) : ℕ :=
  digits.foldl (fun n c => 10 * n + (c.toNat - '0'.toNat)) 0

/-- `parse` of an unsigned integer type with `bound` values. -/
def parseUnsigned (bound : ℕ) (s : String) : Option ℕ :=
  let digits : List Char := match s.toList with
    | '+' :: digits => digits
    | digits => digits
  if digits ≠ [] ∧ digits.all Char.isDigit ∧ decimal digits < bound then some (decimal digits)
  else none

def eqIgnoreAsciiCase (left right : String) : Bool :=
  left.toList.map Char.toLower == right.toList.map Char.toLower

def trimEndMatches (c : Char) (s : String) : String :=
  .ofList (s.toList.reverse.dropWhile (· == c)).reverse

def bytes (s : String) : List UInt8 := s.toList.flatMap String.utf8EncodeChar

/-- `from_utf8`. -/
def ofBytes (b : List UInt8) : Option String := String.fromUTF8? b.toByteArray

example : trim " 5s\t" = "5s" := by decide

example : parseUnsigned (2 ^ 32) "+10" = some 10 := by decide

theorem ofBytes_bytes (s : String) : ofBytes (bytes s) = some s := by
  have hbytes : (bytes s).toByteArray = s.toByteArray := by
    have hlist : (String.ofList s.toList).toByteArray = s.toList.utf8Encode :=
      String.toByteArray_ofList
    rw [String.ofList_toList] at hlist
    exact hlist.symm
  rw [ofBytes, hbytes, String.fromUTF8?, dif_pos s.isValidUTF8]
  rfl

theorem bytes_injective : Function.Injective bytes := by
  intro s t h
  have hs := ofBytes_bytes s
  rw [h, ofBytes_bytes] at hs
  exact (Option.some.inj hs).symm

theorem decimal_toString (n : ℕ) : decimal (toString n).toList = n := by
  rw [Nat.toString_eq_repr, Nat.toList_repr]
  exact Nat.ofDigitChars_eq_foldl.symm.trans Nat.ofDigitChars_ten_toDigits

theorem stripSuffix_eq_some {s suffix rest : String} :
    stripSuffix s suffix = some rest ↔ s = rest ++ suffix := by
  rw [stripSuffix]
  by_cases h : suffix.toList.isSuffixOf s.toList = true
  · rw [if_pos h, Option.some.injEq]
    obtain ⟨front, hfront⟩ := List.isSuffixOf_iff_suffix.mp h
    have htake : s.toList.take (s.toList.length - suffix.toList.length) = front := by
      rw [← hfront, List.length_append, Nat.add_sub_cancel, List.take_left]
    rw [htake]
    constructor
    · rintro rfl
      apply String.toList_inj.mp
      rw [String.toList_append, String.toList_ofList, hfront]
    · rintro rfl
      rw [String.toList_append] at hfront
      apply String.toList_inj.mp
      rw [String.toList_ofList]
      exact List.append_cancel_right hfront
  · rw [if_neg h]
    constructor
    · intro hnone
      cases hnone
    · rintro rfl
      refine absurd (List.isSuffixOf_iff_suffix.mpr ?_) h
      rw [String.toList_append]
      exact List.suffix_append _ _

theorem stripSuffix_append (s suffix : String) : stripSuffix (s ++ suffix) suffix = some s :=
  stripSuffix_eq_some.mpr rfl

theorem stripSuffix_of_not_mem {s suffix : String} {c : Char} (hc : c ∈ suffix.toList)
    (hs : c ∉ s.toList) : stripSuffix s suffix = none := by
  cases hstrip : stripSuffix s suffix with
  | none => rfl
  | some rest =>
    rw [stripSuffix_eq_some.mp hstrip, String.toList_append] at hs
    exact absurd (List.mem_append_right _ hc) hs

def IsBlank (s : String) : Prop := ∀ c ∈ s.toList, isWhitespace c = true

/-- Neither end is white space. -/
structure Trimmed (l : List Char) : Prop where
  front : ∀ c ∈ l.head?, isWhitespace c = false
  back : ∀ c ∈ l.getLast?, isWhitespace c = false

theorem trimChars_front (l : List Char) : trimChars l <+: l.dropWhile isWhitespace := by
  refine ⟨((l.dropWhile isWhitespace).reverse.takeWhile isWhitespace).reverse, ?_⟩
  rw [trimChars, ← List.reverse_append, List.takeWhile_append_dropWhile, List.reverse_reverse]

theorem mem_of_mem_trim {s : String} {c : Char} (h : c ∈ (trim s).toList) : c ∈ s.toList := by
  rw [trim, String.toList_ofList] at h
  exact (List.dropWhile_suffix _).subset ((trimChars_front s.toList).subset h)

theorem trimmed_trimChars (l : List Char) : Trimmed (trimChars l) where
  front c hc := by
    obtain ⟨later, hlater⟩ := trimChars_front l
    have hhead := List.head?_dropWhile_not isWhitespace l
    rw [← hlater, List.head?_append, Option.mem_def.mp hc] at hhead
    exact hhead
  back c hc := by
    have hhead := List.head?_dropWhile_not isWhitespace (l.dropWhile isWhitespace).reverse
    rw [trimChars, List.getLast?_reverse] at hc
    rw [Option.mem_def.mp hc] at hhead
    exact hhead

/-- White space around a text is what `trim` removes. -/
theorem trimChars_padded {before text after : List Char}
    (hbefore : ∀ c ∈ before, isWhitespace c = true) (hafter : ∀ c ∈ after, isWhitespace c = true)
    (htext : Trimmed text) : trimChars (before ++ (text ++ after)) = text := by
  have hdrop : ∀ l : List Char, (∀ c ∈ l.head?, isWhitespace c = false) →
      l.dropWhile isWhitespace = l := by
    intro l hl
    cases l with
    | nil => rfl
    | cons c l => rw [List.dropWhile_cons_of_neg (by simp [hl c rfl])]
  have hreverse : ∀ c ∈ after.reverse, isWhitespace c = true := by
    intro c hc
    exact hafter c (List.mem_reverse.mp hc)
  rw [trimChars, List.dropWhile_append_of_pos hbefore]
  cases text with
  | nil =>
    rw [List.nil_append, List.dropWhile_eq_nil_iff.mpr hafter]
    rfl
  | cons c text =>
    rw [hdrop (c :: text ++ after) htext.front, List.reverse_append,
      List.dropWhile_append_of_pos hreverse, hdrop, List.reverse_reverse]
    rw [List.head?_reverse]
    exact htext.back

theorem trim_padded {before text after : String} (hbefore : IsBlank before)
    (hafter : IsBlank after) (htext : Trimmed text.toList) :
    trim (before ++ text ++ after) = text := by
  rw [trim, String.toList_append, String.toList_append, List.append_assoc,
    trimChars_padded hbefore hafter htext, String.ofList_toList]

theorem trim_eq_empty {s : String} : trim s = "" ↔ IsBlank s := by
  rw [trim, ← String.toList_inj, String.toList_ofList]
  constructor
  · intro h c hc
    rw [← List.takeWhile_append_dropWhile (p := isWhitespace) (l := s.toList)] at hc
    rcases List.mem_append.mp hc with hc | hc
    · exact List.mem_takeWhile_imp hc
    · have hall := List.reverse_eq_nil_iff.mp h
      exact List.dropWhile_eq_nil_iff.mp hall c (List.mem_reverse.mpr hc)
  · intro h
    rw [trimChars, List.dropWhile_eq_nil_iff.mpr h]
    rfl

theorem trim_eq_self {s : String} (h : ∀ c ∈ s.toList, isWhitespace c = false) :
    trim s = s := by
  have htrimmed : Trimmed s.toList :=
    ⟨fun c hc => h c (List.mem_of_mem_head? hc), fun c hc => h c (List.mem_of_getLast? hc)⟩
  have hblank : IsBlank "" := fun _ hc => by cases hc
  have hpadded := trim_padded hblank hblank htrimmed
  rwa [String.empty_append, String.append_empty] at hpadded

def withoutSign : List Char → List Char
  | '+' :: digits => digits
  | digits => digits

theorem parseUnsigned_eq_some {bound n : ℕ} {s : String} :
    parseUnsigned bound s = some n ↔ withoutSign s.toList ≠ [] ∧
      (withoutSign s.toList).all Char.isDigit = true ∧ decimal (withoutSign s.toList) = n ∧
      n < bound := by
  have heq : parseUnsigned bound s =
      if withoutSign s.toList ≠ [] ∧ (withoutSign s.toList).all Char.isDigit = true ∧
        decimal (withoutSign s.toList) < bound then some (decimal (withoutSign s.toList))
      else none := rfl
  rw [heq]
  constructor
  · intro h
    by_cases hdigits : withoutSign s.toList ≠ [] ∧
        (withoutSign s.toList).all Char.isDigit = true ∧ decimal (withoutSign s.toList) < bound
    · rw [if_pos hdigits, Option.some.injEq] at h
      exact ⟨hdigits.1, hdigits.2.1, h, h ▸ hdigits.2.2⟩
    · rw [if_neg hdigits] at h
      cases h
  · rintro ⟨hne, hall, rfl, hlt⟩
    rw [if_pos ⟨hne, hall, hlt⟩]

theorem parseUnsigned_lt {bound n : ℕ} {s : String} (h : parseUnsigned bound s = some n) :
    n < bound := (parseUnsigned_eq_some.mp h).2.2.2

theorem getLast?_withoutSign {l : List Char} (h : withoutSign l ≠ []) :
    l.getLast? = (withoutSign l).getLast? := by
  rcases l with _ | ⟨c, l⟩
  · rfl
  · by_cases hc : c = '+'
    · subst hc
      obtain ⟨d, l, rfl⟩ : ∃ d rest, l = d :: rest := List.exists_cons_of_ne_nil h
      rw [List.getLast?_cons_cons]
      rfl
    · have hsame : withoutSign (c :: l) = c :: l := by
        rw [withoutSign]
        rintro digits ⟨⟩
        exact hc rfl
      rw [hsame]

/-- A number ends in a digit, whatever its sign. -/
theorem getLast?_of_parseUnsigned {bound n : ℕ} {s : String}
    (h : parseUnsigned bound s = some n) : ∃ c, s.toList.getLast? = some c ∧ c.isDigit = true := by
  obtain ⟨hne, hall, -, -⟩ := parseUnsigned_eq_some.mp h
  refine ⟨(withoutSign s.toList).getLast hne, ?_, ?_⟩
  · rw [getLast?_withoutSign hne, List.getLast?_eq_some_getLast hne]
  · exact List.all_eq_true.mp hall _ (List.getLast_mem hne)

theorem isDigit_toString (n : ℕ) : ∀ c ∈ (toString n).toList, c.isDigit = true := by
  intro c hc
  rw [Nat.toString_eq_repr, Nat.toList_repr] at hc
  exact Nat.isDigit_of_mem_toDigits (by decide) (by decide) hc

theorem toString_ne_nil (n : ℕ) : (toString n).toList ≠ [] := by
  rw [Nat.toString_eq_repr, Nat.toList_repr]
  exact Nat.toDigits_ne_nil

theorem isWhitespace_of_isDigit {c : Char} (h : c.isDigit = true) : isWhitespace c = false := by
  have hrange : 48 ≤ c.toNat ∧ c.toNat ≤ 57 := Char.isDigit_iff_toNat.mp h
  simp only [isWhitespace, Bool.or_eq_false_iff, Bool.and_eq_false_iff, beq_eq_false_iff_ne,
    decide_eq_false_iff_not]
  omega

theorem trim_toString (n : ℕ) : trim (toString n) = toString n :=
  trim_eq_self fun c hc => isWhitespace_of_isDigit (isDigit_toString n c hc)

theorem parseUnsigned_toString {bound n : ℕ} (h : n < bound) :
    parseUnsigned bound (toString n) = some n := by
  have hdigits := isDigit_toString n
  have hsign : withoutSign (toString n).toList = (toString n).toList := by
    rw [withoutSign]
    intro digits heq
    have hplus := hdigits '+' (by rw [heq]; exact List.mem_cons_self)
    exact absurd hplus (by decide)
  rw [parseUnsigned_eq_some, hsign]
  exact ⟨toString_ne_nil n, List.all_eq_true.mpr hdigits, decimal_toString n, h⟩

theorem startsWith_append (start text : String) : startsWith (start ++ text) start = true := by
  simp [startsWith]

theorem startsWith_self (s : String) : startsWith s s = true := by
  simp [startsWith]

theorem startsWith_iff {s start : String} :
    startsWith s start = true ↔ ∃ rest, s = start ++ rest := by
  constructor
  · intro h
    obtain ⟨rest, hrest⟩ := List.isPrefixOf_iff_prefix.mp h
    refine ⟨.ofList rest, String.toList_inj.mp ?_⟩
    rw [String.toList_append, ← hrest]
    exact congrArg (start.toList ++ ·) String.toList_ofList.symm
  · rintro ⟨rest, rfl⟩
    exact startsWith_append start rest

theorem splitOnce_append {c : Char} {before : String} (h : c ∉ before.toList) (after : String) :
    splitOnce c (before ++ .ofList (c :: after.toList)) = some (before, after) := by
  have hp : ∀ x ∈ before.toList, (x != c) = true := by
    intro x hx
    simp only [bne_iff_ne, ne_eq]
    rintro rfl
    exact h hx
  simp only [splitOnce, String.toList_append, String.toList_ofList,
    List.takeWhile_append_of_pos hp, List.dropWhile_append_of_pos hp]
  simp

theorem splitOnce_eq_some {c : Char} {s before after : String}
    (h : splitOnce c s = some (before, after)) : s = before ++ .ofList (c :: after.toList) := by
  rw [splitOnce] at h
  split at h
  · next d rest hdrop =>
    cases h
    have hd : d = c := by
      have hhead := List.head?_dropWhile_not (· != c) s.toList
      simpa [hdrop] using hhead
    subst hd
    rw [← String.toList_inj, String.toList_append, String.toList_ofList, String.toList_ofList,
      String.toList_ofList, ← hdrop, List.takeWhile_append_dropWhile]
  · cases h

theorem splitOnce_of_not_mem {c : Char} {s : String} (h : c ∉ s.toList) : splitOnce c s = none := by
  cases hsplit : splitOnce c s with
  | none => rfl
  | some parts =>
    have heq := splitOnce_eq_some hsplit
    exact absurd (by rw [heq]; simp) h

end Text

end Iperf3Rs
