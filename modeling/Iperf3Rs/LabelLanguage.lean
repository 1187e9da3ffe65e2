import Iperf3Rs.PushConfigAgreement
import Iperf3Rs.SymbolClass

/-! The names that labels and metric prefixes may have. The source has three scanners of bytes for
them, one for each place, and all of them read one language. -/

namespace Iperf3Rs

namespace Text

def isAsciiAlphabetic (b : UInt8) : Bool := (65 ≤ b && b ≤ 90) || (97 ≤ b && b ≤ 122)

def isAsciiAlphanumeric (b : UInt8) : Bool := isAsciiAlphabetic b || (48 ≤ b && b ≤ 57)

end Text

/-- The scan of all three: a first byte, then a loop over the others. -/
def scanName (lead other : UInt8 → Bool) : List UInt8 → Bool
  | [] => false
  | first :: rest => if !lead first then false else rest.all other

def isValidMetricPrefixBytes : List UInt8 → Bool :=
  scanName (fun first => Text.isAsciiAlphabetic first || first == 95)
    (fun byte => Text.isAsciiAlphanumeric byte || byte == 95)

def PrometheusEncoder.isValidLabelNameBytes : List UInt8 → Bool :=
  scanName (fun first => Text.isAsciiAlphabetic first || first == 95)
    (fun byte => Text.isAsciiAlphanumeric byte || byte == 95)

def PushGatewayConfig.isValidLabelNameBytes : List UInt8 → Bool :=
  scanName (fun first => Text.isAsciiAlphabetic first || first == 95)
    (fun byte => Text.isAsciiAlphanumeric byte || byte == 95)

def PushGatewayConfig.isReservedLabelNameBytes (name : List UInt8) : Bool :=
  name == [106, 111, 98] || [95, 95].isPrefixOf name

section Language

def byteRange (first last : Char) : List UInt8 :=
  (List.range' first.toNat (last.toNat + 1 - first.toNat)).map UInt8.ofNat

def leadBytes : List UInt8 := byteRange 'A' 'Z' ++ byteRange 'a' 'z' ++ byteRange '_' '_'

def nameBytes : List UInt8 :=
  byteRange 'A' 'Z' ++ byteRange 'a' 'z' ++ byteRange '0' '9' ++ byteRange '_' '_'

/-- `[A-Za-z_][A-Za-z0-9_]*`. -/
def nameExpression : RegularExpression UInt8 := SymbolClass.leadThen leadBytes nameBytes

theorem mem_byteRange (first last : Char) (hlast : last.toNat < 256) {b : UInt8} :
    b ∈ byteRange first last ↔ first.toNat ≤ b.toNat ∧ b.toNat ≤ last.toNat := by
  simp only [byteRange, List.mem_map, List.mem_range'_1]
  constructor
  · rintro ⟨n, ⟨hfirst, hn⟩, rfl⟩
    rw [UInt8.toNat_ofNat_of_lt' (by change n < 256; omega)]
    omega
  · rintro ⟨hfirst, hb⟩
    exact ⟨b.toNat, ⟨hfirst, by omega⟩, UInt8.ofNat_toNat⟩

theorem isAsciiAlphabetic_iff {b : UInt8} : Text.isAsciiAlphabetic b = true ↔
    65 ≤ b.toNat ∧ b.toNat ≤ 90 ∨ 97 ≤ b.toNat ∧ b.toNat ≤ 122 := by
  simp [Text.isAsciiAlphabetic, UInt8.le_iff_toNat_le]

theorem isAsciiAlphanumeric_iff {b : UInt8} : Text.isAsciiAlphanumeric b = true ↔
    (65 ≤ b.toNat ∧ b.toNat ≤ 90 ∨ 97 ≤ b.toNat ∧ b.toNat ≤ 122) ∨
      48 ≤ b.toNat ∧ b.toNat ≤ 57 := by
  rw [Text.isAsciiAlphanumeric, Bool.or_eq_true, isAsciiAlphabetic_iff]
  simp [UInt8.le_iff_toNat_le]

theorem underscore_iff {b : UInt8} : (b == 95) = true ↔ b.toNat = 95 := by
  rw [beq_iff_eq, ← UInt8.toNat_inj]
  rfl

theorem mem_leadBytes {b : UInt8} :
    b ∈ leadBytes ↔ (Text.isAsciiAlphabetic b || b == 95) = true := by
  simp only [leadBytes, List.mem_append, mem_byteRange 'A' 'Z' (by decide),
    mem_byteRange 'a' 'z' (by decide),
    mem_byteRange '_' '_' (by decide), Char.reduceToNat, Bool.or_eq_true,
    isAsciiAlphabetic_iff, underscore_iff]
  omega

theorem mem_nameBytes {b : UInt8} :
    b ∈ nameBytes ↔ (Text.isAsciiAlphanumeric b || b == 95) = true := by
  simp only [nameBytes, List.mem_append, mem_byteRange 'A' 'Z' (by decide),
    mem_byteRange 'a' 'z' (by decide),
    mem_byteRange '0' '9' (by decide),
    mem_byteRange '_' '_' (by decide), Char.reduceToNat, Bool.or_eq_true,
    isAsciiAlphanumeric_iff, underscore_iff]
  omega

theorem scanName_iff {lead other : UInt8 → Bool} {name : List UInt8} :
    scanName lead other name = true ↔
      ∃ first rest, name = first :: rest ∧ lead first = true ∧ ∀ b ∈ rest, other b = true := by
  cases name with
  | nil => simp [scanName]
  | cons first rest =>
    cases hlead : lead first with
    | false => simp [scanName, hlead]
    | true => simp [scanName, hlead, List.all_eq_true]

theorem scanName_iff_matches {name : List UInt8} :
    scanName (fun first => Text.isAsciiAlphabetic first || first == 95)
      (fun byte => Text.isAsciiAlphanumeric byte || byte == 95) name = true ↔
      name ∈ nameExpression.matches' := by
  rw [scanName_iff, nameExpression, SymbolClass.mem_leadThen]
  simp only [mem_leadBytes, mem_nameBytes]

end Language

section Texts

theorem utf8EncodeChar_cases (c : Char) :
    (c.toNat < 128 ∧ String.utf8EncodeChar c = [UInt8.ofNat c.toNat]) ∨
      128 ≤ c.toNat ∧ ∃ b later, String.utf8EncodeChar c = b :: later ∧ 128 ≤ b.toNat := by
  have htoNat : c.val.toNat = c.toNat := rfl
  have hmark : ∀ n < 256, 128 ≤ n → 128 ≤ (UInt8.ofNat n).toNat := by
    intro n hn hle
    rwa [UInt8.toNat_ofNat_of_lt' hn]
  by_cases h : c.toNat < 128
  · refine .inl ⟨h, ?_⟩
    rw [String.utf8EncodeChar, htoNat, if_pos (by omega)]
  · refine .inr ⟨by omega, ?_⟩
    rw [String.utf8EncodeChar, htoNat, if_neg (by omega)]
    split
    · exact ⟨_, _, rfl, hmark _ (by omega) (by omega)⟩
    · split
      · exact ⟨_, _, rfl, hmark _ (by omega) (by omega)⟩
      · exact ⟨_, _, rfl, hmark _ (by omega) (by omega)⟩

theorem ascii_classes : ∀ n < 128,
    (Text.isAsciiAlphabetic (UInt8.ofNat n) || UInt8.ofNat n == 95) =
        isIdentifierStart (Char.ofNat n) ∧
      (Text.isAsciiAlphanumeric (UInt8.ofNat n) || UInt8.ofNat n == 95) =
        isIdentifierRest (Char.ofNat n) := by decide

theorem isIdentifierRest_lt {c : Char} (h : isIdentifierRest c = true) : c.toNat < 128 := by
  rw [isIdentifierRest_iff, isIdentifierStart_iff] at h
  omega

theorem nameByte_lt {b : UInt8} (h : (Text.isAsciiAlphanumeric b || b == 95) = true) :
    b.toNat < 128 := by
  rw [Bool.or_eq_true, isAsciiAlphanumeric_iff, underscore_iff] at h
  omega

theorem nameByte_of_lead {b : UInt8} (h : (Text.isAsciiAlphabetic b || b == 95) = true) :
    (Text.isAsciiAlphanumeric b || b == 95) = true := by
  rw [Bool.or_eq_true] at h
  rw [Text.isAsciiAlphanumeric, Bool.or_eq_true, Bool.or_eq_true]
  tauto

/-- No byte of a longer character is in the class. -/
theorem all_nameBytes (text : List Char) :
    ((text.flatMap String.utf8EncodeChar).all fun b => Text.isAsciiAlphanumeric b || b == 95) =
      text.all isIdentifierRest := by
  induction text with
  | nil => rfl
  | cons c text ih =>
    rw [List.flatMap_cons, List.all_append, List.all_cons, ih]
    congr 1
    rcases utf8EncodeChar_cases c with ⟨hlt, hbytes⟩ | ⟨hle, b, later, hbytes, hb⟩
    · have hclass := (ascii_classes c.toNat hlt).2
      rw [Char.ofNat_toNat] at hclass
      rw [hbytes, List.all_cons, List.all_nil, Bool.and_true, hclass]
    · have hother : isIdentifierRest c = false := by
        rw [← Bool.not_eq_true]
        exact fun h => absurd (isIdentifierRest_lt h) (by omega)
      rw [hbytes, hother, ← Bool.not_eq_true, List.all_cons, Bool.and_eq_true]
      exact fun h => absurd (nameByte_lt h.1) (by omega)

theorem isIdentifier_bytes (name : String) :
    isIdentifier name =
      scanName (fun first => Text.isAsciiAlphabetic first || first == 95)
        (fun byte => Text.isAsciiAlphanumeric byte || byte == 95) (Text.bytes name) := by
  rw [isIdentifier, Text.bytes]
  cases name.toList with
  | nil => rfl
  | cons c text =>
    have hrest := all_nameBytes text
    change (isIdentifierStart c && text.all isIdentifierRest) = _
    rw [List.flatMap_cons]
    rcases utf8EncodeChar_cases c with ⟨hlt, hbytes⟩ | ⟨hle, b, later, hbytes, hb⟩
    · have hclass := (ascii_classes c.toNat hlt).1
      rw [Char.ofNat_toNat] at hclass
      rw [hbytes, List.singleton_append, scanName, hclass, hrest]
      cases isIdentifierStart c <;> rfl
    · have hother : isIdentifierStart c = false := by
        rw [← Bool.not_eq_true]
        exact fun h => absurd (isIdentifierRest_lt (isIdentifierRest_of_start h)) (by omega)
      have hlead : (Text.isAsciiAlphabetic b || b == 95) = false := by
        rw [← Bool.not_eq_true]
        exact fun h => absurd (nameByte_lt (nameByte_of_lead h)) (by omega)
      rw [hbytes, List.cons_append, scanName, hlead, hother]
      rfl

theorem isPrefixOf_underscore (later : List UInt8) (c : Char) (text : List Char) :
    (95 :: later).isPrefixOf ((c :: text).flatMap String.utf8EncodeChar) =
      ('_' == c && later.isPrefixOf (text.flatMap String.utf8EncodeChar)) := by
  have htable : ∀ n < 128, ((95 : UInt8) == UInt8.ofNat n) = ('_' == Char.ofNat n) := by decide
  rw [List.flatMap_cons]
  rcases utf8EncodeChar_cases c with ⟨hlt, hbytes⟩ | ⟨hle, b, more, hbytes, hb⟩
  · have hhead := htable c.toNat hlt
    rw [Char.ofNat_toNat] at hhead
    rw [hbytes, List.singleton_append, List.isPrefixOf_cons_cons, hhead]
  · have hbyte : ((95 : UInt8) == b) = false := by
      rw [beq_eq_false_iff_ne]
      rintro rfl
      exact absurd hb (by decide)
    have hchar : ('_' == c) = false := by
      rw [beq_eq_false_iff_ne]
      rintro rfl
      exact absurd hle (by decide)
    rw [hbytes, List.cons_append, List.isPrefixOf_cons_cons, hbyte, hchar]
    rfl

theorem isReservedLabelName_bytes (name : String) :
    PushGatewayConfig.isReservedLabelName name =
      PushGatewayConfig.isReservedLabelNameBytes (Text.bytes name) := by
  have hjob : (name == "job") = (Text.bytes name == [106, 111, 98]) := by
    rw [Bool.eq_iff_iff, beq_iff_eq, beq_iff_eq]
    exact (Text.bytes_injective.eq_iff (b := "job")).symm
  rw [PushGatewayConfig.isReservedLabelName, PushGatewayConfig.isReservedLabelNameBytes, hjob]
  congr 1
  change ['_', '_'].isPrefixOf name.toList = _
  rw [Text.bytes]
  rcases name.toList with _ | ⟨c, _ | ⟨d, text⟩⟩
  · rfl
  · rw [isPrefixOf_underscore]
    simp [List.isPrefixOf]
  · rw [isPrefixOf_underscore, isPrefixOf_underscore]
    simp [List.isPrefixOf]

end Texts

section Lists

/-- Labels that can stand on every sample. -/
structure FixedLabels (labels : List (String × String)) : Prop where
  names : ∀ label ∈ labels, Text.bytes label.1 ∈ nameExpression.matches' ∧ label.1 ≠ "__name__"
  values : ∀ label ∈ labels, label.2 ≠ ""
  distinct : labels.Pairwise fun left right => left.1 ≠ right.1

/-- Labels that can make up a grouping key. -/
structure GroupingLabels (labels : List (String × String)) : Prop extends FixedLabels labels where
  unreserved : ∀ label ∈ labels, label.1 ≠ "job" ∧ ∀ rest, label.1 ≠ "__" ++ rest

theorem isIdentifier_iff_matches {name : String} :
    isIdentifier name = true ↔ Text.bytes name ∈ nameExpression.matches' := by
  rw [isIdentifier_bytes, scanName_iff_matches]

theorem isReservedLabelName_eq_false {name : String} :
    PushGatewayConfig.isReservedLabelName name = false ↔
      name ≠ "job" ∧ ∀ rest, name ≠ "__" ++ rest := by
  rw [PushGatewayConfig.isReservedLabelName, Bool.or_eq_false_iff, beq_eq_false_iff_ne]
  refine and_congr_right fun _ => ?_
  rw [← Bool.not_eq_true, Text.startsWith_iff, not_exists]

theorem PrometheusEncoder.validateLabels_iff {labels : List (String × String)} :
    PrometheusEncoder.validateLabels labels = .ok () ↔ FixedLabels labels := by
  rw [PrometheusEncoder.validateLabels_eq_ok, List.Nodup, List.pairwise_map]
  simp only [isIdentifier_iff_matches]
  constructor
  · rintro ⟨hlabels, hdistinct⟩
    exact ⟨fun label hmem => ⟨(hlabels label hmem).1, (hlabels label hmem).2.1⟩,
      fun label hmem => (hlabels label hmem).2.2, hdistinct⟩
  · intro h
    refine ⟨fun label hmem => ?_, h.distinct⟩
    exact ⟨(h.names label hmem).1, (h.names label hmem).2, h.values label hmem⟩

theorem PushGatewayConfig.validateLabels_iff {labels : List (String × String)} :
    PushGatewayConfig.validateLabels labels = .ok () ↔ GroupingLabels labels := by
  rw [PushGatewayConfig.validateLabels_eq_ok, List.Nodup, List.pairwise_map]
  simp only [isIdentifier_iff_matches, isReservedLabelName_eq_false]
  constructor
  · rintro ⟨hlabels, hdistinct⟩
    refine ⟨⟨fun label hmem => ⟨(hlabels label hmem).1, ?_⟩,
      fun label hmem => (hlabels label hmem).2.2, hdistinct⟩,
      fun label hmem => (hlabels label hmem).2.1⟩
    exact (hlabels label hmem).2.1.2 "name__"
  · intro h
    refine ⟨fun label hmem => ?_, h.distinct⟩
    exact ⟨(h.names label hmem).1, h.unreserved label hmem, h.values label hmem⟩

end Lists

/-- The three scanners read one language, and the two validators differ by the reserved names
alone. -/
theorem label_language :
    (∀ name : List UInt8,
      (isValidMetricPrefixBytes name = true ↔ name ∈ nameExpression.matches') ∧
      (PrometheusEncoder.isValidLabelNameBytes name = true ↔ name ∈ nameExpression.matches') ∧
      (PushGatewayConfig.isValidLabelNameBytes name = true ↔ name ∈ nameExpression.matches') ∧
      isValidMetricPrefixBytes name = PrometheusEncoder.isValidLabelNameBytes name ∧
      PrometheusEncoder.isValidLabelNameBytes name =
        PushGatewayConfig.isValidLabelNameBytes name) ∧
    (∀ name : String,
      isValidMetricPrefix name = isValidMetricPrefixBytes (Text.bytes name) ∧
      PrometheusEncoder.isValidLabelName name =
        PrometheusEncoder.isValidLabelNameBytes (Text.bytes name) ∧
      PushGatewayConfig.isValidLabelName name =
        PushGatewayConfig.isValidLabelNameBytes (Text.bytes name) ∧
      PushGatewayConfig.isReservedLabelName name =
        PushGatewayConfig.isReservedLabelNameBytes (Text.bytes name)) ∧
    ∀ labels : List (String × String),
      (PrometheusEncoder.validateLabels labels = .ok () ↔ FixedLabels labels) ∧
      (PushGatewayConfig.validateLabels labels = .ok () ↔ GroupingLabels labels) ∧
      (PushGatewayConfig.validateLabels labels = .ok () →
        PrometheusEncoder.validateLabels labels = .ok ()) := by
  refine ⟨fun name => ?_, fun name => ?_, fun labels => ?_⟩
  · exact ⟨scanName_iff_matches, scanName_iff_matches, scanName_iff_matches, rfl, rfl⟩
  · exact ⟨isIdentifier_bytes name, isIdentifier_bytes name, isIdentifier_bytes name,
      isReservedLabelName_bytes name⟩
  · refine ⟨PrometheusEncoder.validateLabels_iff, PushGatewayConfig.validateLabels_iff, ?_⟩
    intro h
    exact PrometheusEncoder.validateLabels_iff.mpr
      (PushGatewayConfig.validateLabels_iff.mp h).toFixedLabels

end Iperf3Rs
