import Iperf3Rs.DecimalNumeral
import Iperf3Rs.JsonSyntax
import Iperf3Rs.JsonlFile

/-! Reading a JSONL metrics file back: every line gives the event that has been recorded in it. -/

namespace Iperf3Rs

open JsonText JsonSyntax LineText

def chars (pieces : Pieces) : List Char := pieces.flatMap String.toList

/-- What a reader of the text finds in it. -/
def content (pieces : Pieces) : Json := (parse (chars pieces)).getD .null

def Readable (pieces : Pieces) : Prop := Denotes (chars pieces) (content pieces)

theorem content_of_denotes {pieces : Pieces} {value : Json} (h : Denotes (chars pieces) value) :
    content pieces = value := by
  rw [content, parse_of_denotes h]
  rfl

theorem Readable.of_denotes {pieces : Pieces} {value : Json} (h : Denotes (chars pieces) value) :
    Readable pieces := by
  rw [Readable, content_of_denotes h]
  exact h

section Texts

def isReadable (word : String) : Bool := word.toList.all isTextChar

theorem denotes_quoted {word : String} (h : isReadable word = true) :
    Denotes (chars (quoted word)) (.string word) := by
  have hchars : chars (quoted word) = '"' :: (word.toList ++ ['"']) := by
    simp [chars, quoted]
  rw [hchars]
  exact denotes_string (List.all_eq_true.mp h)

theorem toString_negSucc (n : ℕ) :
    (toString (Int.negSucc n)).toList = '-' :: (toString (n + 1)).toList := by
  change ("-" ++ (n + 1).repr).toList = _
  rw [String.toList_append, Nat.toString_eq_repr]
  rfl

theorem isMagnitude_append (n : ℕ) {r : List Char} (h : isFraction r = true)
    (hrest : ∀ c ∈ r.head?, c.isDigit = false) :
    isMagnitude ((toString n).toList ++ r) = true := by
  rw [Nat.toString_eq_repr, Nat.toList_repr]
  obtain ⟨hne, hdigits, hzero⟩ := DecimalNumeral.isWhole_toDigits n
  generalize Nat.toDigits 10 n = digits at hdigits hzero hne
  cases digits with
  | nil => exact absurd rfl hne
  | cons c digits =>
    by_cases hc : c = '0'
    · subst hc
      rw [hzero rfl]
      exact h
    · have hdrop : (digits ++ r).dropWhile Char.isDigit = r := by
        rw [List.dropWhile_append_of_pos fun d hd => hdigits d (List.mem_cons_of_mem _ hd)]
        cases r with
        | nil => rfl
        | cons d r => exact List.dropWhile_cons_of_neg (by simp [hrest d rfl])
      rw [List.cons_append]
      unfold isMagnitude
      split
      · next heq => exact absurd (List.cons.inj heq).1 hc
      · next heq =>
        obtain ⟨rfl, rfl⟩ := List.cons.inj heq
        rw [hdigits c List.mem_cons_self, hdrop, h]
        rfl
      · next heq => cases heq

theorem isNumber_append (n : ℕ) {r : List Char} (h : isFraction r = true)
    (hrest : ∀ c ∈ r.head?, c.isDigit = false) :
    isNumber ((toString n).toList ++ r) = true := by
  have hmagnitude := isMagnitude_append n h hrest
  have hdigit := Text.isDigit_toString n
  cases htext : (toString n).toList with
  | nil => exact absurd htext (Text.toString_ne_nil n)
  | cons c s =>
    rw [htext] at hmagnitude hdigit
    rw [List.cons_append] at hmagnitude ⊢
    unfold isNumber
    split
    · next heq =>
      obtain ⟨rfl, -⟩ := List.cons.inj heq
      exact absurd (hdigit '-' List.mem_cons_self) (by decide)
    · exact hmagnitude

theorem isNumber_toString (n : Int) : isNumber (toString n).toList = true := by
  cases n with
  | ofNat n =>
    have hnumber := isNumber_append n (r := []) rfl (by simp)
    rw [List.append_nil] at hnumber
    exact hnumber
  | negSucc n =>
    rw [toString_negSucc]
    have hmagnitude := isMagnitude_append (n + 1) (r := []) rfl (by simp)
    rw [List.append_nil] at hmagnitude
    exact hmagnitude

theorem denotes_int (n : Int) : Denotes (chars (number n)) (.number (toString n)) := by
  have hchars : chars (number n) = (toString n).toList := by
    simp [chars, number]
  rw [hchars]
  exact denotes_number (isNumber_toString n)

end Texts

section Objects

theorem chars_append (pieces later : Pieces) :
    chars (pieces ++ later) = chars pieces ++ chars later :=
  List.flatMap_append

/-- The members of an object as the grammar has them. -/
def entries (fields : List (String × Pieces)) : List (String × List Char) :=
  fields.map fun field => (field.1, chars field.2)

theorem chars_members (fields : List (String × Pieces)) :
    chars (members true fields) = membersText (entries fields) ∧
      (fields ≠ [] → chars (members false fields) = ',' :: membersText (entries fields)) := by
  induction fields with
  | nil => exact ⟨rfl, fun h => absurd rfl h⟩
  | cons field fields ih =>
    obtain ⟨key, value⟩ := field
    have hhead : chars (quoted key ++ [":"] ++ value) =
        '"' :: (key.toList ++ '"' :: ':' :: chars value) := by
      simp [chars, quoted]
    have htext : chars (quoted key ++ [":"] ++ value ++ members false fields) =
        membersText (entries ((key, value) :: fields)) := by
      rw [chars_append, hhead]
      cases fields with
      | nil => simp [chars, members, membersText, entries]
      | cons next fields =>
        rw [ih.2 (List.cons_ne_nil _ _)]
        simp [entries, membersText]
    refine ⟨?_, fun _ => ?_⟩
    · rw [← htext]
      rfl
    · rw [← htext]
      rfl

theorem chars_object (fields : List (String × Pieces)) :
    chars (object fields) = '\x7b' :: (membersText (entries fields) ++ ['\x7d']) := by
  rw [← (chars_members fields).1]
  simp [chars, object]

/-- Every key stands for itself, and every value can be read. -/
def ReadableFields (fields : List (String × Pieces)) : Prop :=
  ∀ field ∈ fields, isReadable field.1 = true ∧ Readable field.2

theorem ReadableFields.of_values {fields : List (String × Pieces)}
    (hkeys : (fields.map Prod.fst).all isReadable = true)
    (hvalues : ∀ value ∈ fields.map Prod.snd, Readable value) : ReadableFields fields := by
  intro field hfield
  exact ⟨List.all_eq_true.mp hkeys field.1 (List.mem_map_of_mem hfield),
    hvalues field.2 (List.mem_map_of_mem hfield)⟩

/-- What stands in the members of an object. -/
def contents (fields : List (String × Pieces)) : List (String × Json) :=
  fields.map fun field => (field.1, content field.2)

theorem denotes_fields {fields : List (String × Pieces)} (h : ReadableFields fields) :
    Denotes (chars (object fields)) (.object (contents fields)) := by
  rw [chars_object]
  refine denotes_object ?_
  induction fields with
  | nil => exact .nil
  | cons field fields ih =>
    obtain ⟨hkey, hvalue⟩ := h field List.mem_cons_self
    exact .cons ⟨List.all_eq_true.mp hkey, rfl, hvalue⟩
      (ih fun f hf => h f (List.mem_cons_of_mem _ hf))

end Objects

section Readers

/-- A whole number, as far as its text has neither a fraction nor an exponent. -/
def readInt : Json → Option Int
  | .number text =>
    match text.toList with
    | '-' :: digits => if digits.all Char.isDigit then some (-(Text.decimal digits)) else none
    | digits => if digits.all Char.isDigit then some (Text.decimal digits) else none
  | _ => none

def readNat (value : Json) : Option ℕ := (readInt value).bind Int.toNat?

def readBool : Json → Option Bool
  | .bool value => some value
  | _ => none

def readText : Json → Option String
  | .string text => some text
  | _ => none

def readRole : Json → Option Role
  | .string text =>
    if text = "Client" then some .client else if text = "Server" then some .server else none
  | .object members => ((members.lookup "Unknown").bind readInt).map fun n => .unknown (.ofInt n)
  | _ => none

def readDirection : Json → Option MetricDirection
  | .string text =>
    if text = "Unknown" then some .unknown
    else if text = "Sender" then some .sender
    else if text = "Receiver" then some .receiver
    else none
  | .object members => ((members.lookup "Other").bind readInt).map fun n => .other (.ofInt n)
  | _ => none

def readProtocol : Json → Option TransportProtocol
  | .string text =>
    if text = "Unknown" then some .unknown
    else if text = "Tcp" then some .tcp
    else if text = "Udp" then some .udp
    else if text = "Sctp" then some .sctp
    else none
  | .object members => ((members.lookup "Other").bind readInt).map fun n => .other (.ofInt n)
  | _ => none

theorem readInt_toString (n : Int) : readInt (.number (toString n)) = some n := by
  cases n with
  | ofNat n =>
    have hdigit := Text.isDigit_toString n
    change readInt (.number (toString n)) = _
    simp only [readInt]
    split
    · next rest heq =>
      rw [heq] at hdigit
      exact absurd (hdigit '-' List.mem_cons_self) (by decide)
    · rw [if_pos (List.all_eq_true.mpr hdigit), Text.decimal_toString]
      rfl
  | negSucc n =>
    simp only [readInt, toString_negSucc]
    rw [if_pos (List.all_eq_true.mpr (Text.isDigit_toString (n + 1))), Text.decimal_toString]
    rfl

theorem readable_int (n : Int) : Readable (number n) := .of_denotes (denotes_int n)

@[simp] theorem readInt_number (n : Int) : readInt (content (number n)) = some n := by
  rw [content_of_denotes (denotes_int n), readInt_toString]

@[simp] theorem readNat_number (n : ℕ) : readNat (content (number n)) = some n := by
  rw [readNat, readInt_number]
  rfl

theorem readable_quoted {word : String} (h : isReadable word = true) : Readable (quoted word) :=
  .of_denotes (denotes_quoted h)

theorem content_quoted {w : String} (h : isReadable w = true) :
    content (quoted w) = .string w :=
  content_of_denotes (denotes_quoted h)

theorem content_object {fields : List (String × Pieces)} (h : ReadableFields fields) :
    content (object fields) = .object (contents fields) :=
  content_of_denotes (denotes_fields h)

theorem readableFields_variant {variant : String} (h : isReadable variant = true) (n : Int) :
    ReadableFields [(variant, number n)] := by
  intro field hfield
  rw [List.mem_singleton.mp hfield]
  exact ⟨h, readable_int n⟩

theorem readable_variant {variant : String} (h : isReadable variant = true) (n : Int) :
    Readable (object [(variant, number n)]) :=
  .of_denotes (denotes_fields (readableFields_variant h n))

theorem content_variant {v : String} (h : isReadable v = true) (n : Int) :
    content (object [(v, number n)]) = .object [(v, content (number n))] :=
  content_object (readableFields_variant h n)

theorem Role.readable (role : Role) : Readable role.pieces := by
  cases role with
  | client => exact readable_quoted (by decide)
  | server => exact readable_quoted (by decide)
  | unknown value => exact readable_variant (by decide) _

@[simp] theorem readRole_pieces (role : Role) : readRole (content role.pieces) = some role := by
  cases role with
  | client => simp [Role.pieces, content_quoted (w := "Client") (by decide), readRole]
  | server => simp [Role.pieces, content_quoted (w := "Server") (by decide), readRole]
  | unknown value =>
    simp [Role.pieces, content_variant (v := "Unknown") (by decide), readRole]

theorem MetricDirection.readable (direction : MetricDirection) : Readable direction.pieces := by
  cases direction with
  | unknown => exact readable_quoted (by decide)
  | sender => exact readable_quoted (by decide)
  | receiver => exact readable_quoted (by decide)
  | other value => exact readable_variant (by decide) _

@[simp] theorem readDirection_pieces (direction : MetricDirection) :
    readDirection (content direction.pieces) = some direction := by
  cases direction with
  | unknown => simp [MetricDirection.pieces, content_quoted (w := "Unknown") (by decide),
      readDirection]
  | sender => simp [MetricDirection.pieces, content_quoted (w := "Sender") (by decide),
      readDirection]
  | receiver => simp [MetricDirection.pieces, content_quoted (w := "Receiver") (by decide),
      readDirection]
  | other value => simp [MetricDirection.pieces, content_variant (v := "Other") (by decide),
      readDirection]

theorem TransportProtocol.readable (protocol : TransportProtocol) : Readable protocol.pieces := by
  cases protocol with
  | unknown => exact readable_quoted (by decide)
  | tcp => exact readable_quoted (by decide)
  | udp => exact readable_quoted (by decide)
  | sctp => exact readable_quoted (by decide)
  | other value => exact readable_variant (by decide) _

@[simp] theorem readProtocol_pieces (protocol : TransportProtocol) :
    readProtocol (content protocol.pieces) = some protocol := by
  cases protocol with
  | unknown => simp [TransportProtocol.pieces, content_quoted (w := "Unknown") (by decide),
      readProtocol]
  | tcp => simp [TransportProtocol.pieces, content_quoted (w := "Tcp") (by decide),
      readProtocol]
  | udp => simp [TransportProtocol.pieces, content_quoted (w := "Udp") (by decide),
      readProtocol]
  | sctp => simp [TransportProtocol.pieces, content_quoted (w := "Sctp") (by decide),
      readProtocol]
  | other value => simp [TransportProtocol.pieces,
      content_variant (v := "Other") (by decide), readProtocol]

theorem denotes_boolPieces (value : Bool) : Denotes (chars (boolPieces value)) (.bool value) := by
  have hchars : chars (boolPieces value) = (if value then "true" else "false").toList := by
    simp [chars, boolPieces]
  rw [hchars]
  exact denotes_bool value

theorem readable_bool (value : Bool) : Readable (boolPieces value) :=
  .of_denotes (denotes_boolPieces value)

@[simp] theorem readBool_pieces (value : Bool) :
    readBool (content (boolPieces value)) = some value := by
  rw [content_of_denotes (denotes_boolPieces value)]
  rfl

end Readers

end Iperf3Rs
