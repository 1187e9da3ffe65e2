import Mathlib.Data.List.Basic

/-! Percent-encoding of bytes, for any set of bytes that are kept as they are, and the decoding of
any text that mixes kept characters and triplets. -/

namespace PercentEncoding

def hexDigit (n : ℕ) : Char := Char.ofNat (if n < 10 then n + 48 else n + 55)

def hexValue (c : Char) : Option ℕ :=
  if c.isDigit then some (c.toNat - 48)
  else if 'A' ≤ c ∧ c ≤ 'F' then some (c.toNat - 55)
  else if 'a' ≤ c ∧ c ≤ 'f' then some (c.toNat - 87)
  else none

theorem hexValue_hexDigit : ∀ n < 16, hexValue (hexDigit n) = some n := by decide

/-- A percent sign that no two hexadecimal digits follow is an error. -/
def decode : List Char → Option (List UInt8)
  | [] => some []
  | c :: rest =>
    if c = '%' then
      match rest with
      | high :: low :: rest =>
        match hexValue high, hexValue low with
        | some h, some l => (decode rest).map (UInt8.ofNat (16 * h + l) :: ·)
        | _, _ => none
      | _ => none
    else (decode rest).map (String.utf8EncodeChar c ++ ·)

/-- The text decodes to the bytes wherever it stands. -/
def Decodes (text : List Char) (bytes : List UInt8) : Prop :=
  ∀ rest, decode (text ++ rest) = (decode rest).map (bytes ++ ·)

theorem Decodes.decode_eq {text : List Char} {bytes : List UInt8} (h : Decodes text bytes) :
    decode text = some bytes := by
  have hnil := h []
  rw [List.append_nil] at hnil
  rw [hnil, decode, Option.map_some, List.append_nil]

theorem Decodes.nil : Decodes [] [] := by
  intro rest
  simp

theorem Decodes.append {text text' : List Char} {bytes bytes' : List UInt8}
    (h : Decodes text bytes) (h' : Decodes text' bytes') :
    Decodes (text ++ text') (bytes ++ bytes') := by
  intro rest
  rw [List.append_assoc, h, h', Option.map_map]
  congr 1
  funext later
  simp

theorem Decodes.char {c : Char} (h : c ≠ '%') : Decodes [c] (String.utf8EncodeChar c) := by
  intro rest
  rw [List.singleton_append]
  cases rest with
  | nil => simp [decode, h]
  | cons d rest => cases rest <;> simp [decode, h]

theorem Decodes.chars {text : List Char} (h : ∀ c ∈ text, c ≠ '%') :
    Decodes text (text.flatMap String.utf8EncodeChar) := by
  induction text with
  | nil => exact .nil
  | cons c text ih =>
    have hrest := ih fun d hd => h d (List.mem_cons_of_mem _ hd)
    exact (Decodes.char (h c List.mem_cons_self)).append hrest

theorem Decodes.triplet (byte : UInt8) :
    Decodes ['%', hexDigit (byte.toNat / 16), hexDigit (byte.toNat % 16)] [byte] := by
  intro rest
  have hlt := byte.toNat_lt
  have hhigh := hexValue_hexDigit (byte.toNat / 16) (by omega)
  have hlow := hexValue_hexDigit (byte.toNat % 16) (by omega)
  have hbyte : UInt8.ofNat (16 * (byte.toNat / 16) + byte.toNat % 16) = byte := by
    rw [Nat.div_add_mod]
    exact UInt8.ofNat_toNat
  simp only [List.cons_append, List.nil_append, decode, if_true, hhigh, hlow, hbyte]

/-- A text of kept characters and triplets. -/
inductive Escaped (keep : Char → Bool) : List Char → Prop
  | nil : Escaped keep []
  | char (c : Char) (rest : List Char) (hc : keep c = true) (hrest : Escaped keep rest) :
      Escaped keep (c :: rest)
  | triplet (high low : ℕ) (rest : List Char) (hhigh : high < 16) (hlow : low < 16)
      (hrest : Escaped keep rest) :
      Escaped keep ('%' :: hexDigit high :: hexDigit low :: rest)

theorem Escaped.append {keep : Char → Bool} {text text' : List Char} (h : Escaped keep text)
    (h' : Escaped keep text') : Escaped keep (text ++ text') := by
  induction h with
  | nil => exact h'
  | char c rest hc _ ih => exact .char c _ hc ih
  | triplet high low rest hhigh hlow _ ih => exact .triplet high low _ hhigh hlow ih

theorem Escaped.chars {keep : Char → Bool} {text : List Char} (h : ∀ c ∈ text, keep c = true) :
    Escaped keep text := by
  induction text with
  | nil => exact .nil
  | cons c text ih =>
    exact .char c text (h c List.mem_cons_self) (ih fun d hd => h d (List.mem_cons_of_mem _ hd))

section Encode

variable (keep : UInt8 → Bool)

def encodeByte (byte : UInt8) : List Char :=
  if keep byte then [Char.ofNat byte.toNat]
  else ['%', hexDigit (byte.toNat / 16), hexDigit (byte.toNat % 16)]

def encode (bytes : List UInt8) : List Char := bytes.flatMap (encodeByte keep)

variable {keep}

theorem utf8EncodeChar_ofNat : ∀ n < 128,
    String.utf8EncodeChar (Char.ofNat n) = [UInt8.ofNat n] := by decide

theorem ofNat_ne_percent : ∀ n < 128, n ≠ 37 → Char.ofNat n ≠ '%' := by decide

theorem decodes_encodeByte (hkeep : ∀ byte, keep byte = true → byte.toNat < 128 ∧ byte.toNat ≠ 37)
    (byte : UInt8) : Decodes (encodeByte keep byte) [byte] := by
  by_cases hk : keep byte = true
  · obtain ⟨hlt, hne⟩ := hkeep byte hk
    have hutf8 := utf8EncodeChar_ofNat byte.toNat hlt
    rw [UInt8.ofNat_toNat] at hutf8
    rw [encodeByte, if_pos hk, ← hutf8]
    exact Decodes.char (ofNat_ne_percent byte.toNat hlt hne)
  · rw [encodeByte, if_neg hk]
    exact .triplet byte

theorem decodes_encode (hkeep : ∀ byte, keep byte = true → byte.toNat < 128 ∧ byte.toNat ≠ 37)
    (bytes : List UInt8) : Decodes (encode keep bytes) bytes := by
  induction bytes with
  | nil => exact .nil
  | cons byte bytes ih => exact (decodes_encodeByte hkeep byte).append ih

theorem escaped_encode {keepChar : Char → Bool}
    (hkeep : ∀ byte, keep byte = true → keepChar (Char.ofNat byte.toNat) = true)
    (bytes : List UInt8) : Escaped keepChar (encode keep bytes) := by
  induction bytes with
  | nil => exact .nil
  | cons byte bytes ih =>
    have hbyte : Escaped keepChar (encodeByte keep byte) := by
      by_cases hk : keep byte = true
      · rw [encodeByte, if_pos hk]
        exact .char _ [] (hkeep byte hk) .nil
      · have hlt := byte.toNat_lt
        rw [encodeByte, if_neg hk]
        exact .triplet _ _ [] (by omega) (by omega) .nil
    exact hbyte.append ih

end Encode

end PercentEncoding
