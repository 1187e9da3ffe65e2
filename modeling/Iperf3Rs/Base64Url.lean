import Mathlib.Data.List.Basic

/-! Base64 with the URL-safe alphabet and without padding. Digits are numbers below 64. -/

namespace Base64Url

def digit (n : ℕ) : Char :=
  if n < 26 then Char.ofNat (n + 65)
  else if n < 52 then Char.ofNat (n + 71)
  else if n < 62 then Char.ofNat (n - 4)
  else if n = 62 then '-'
  else '_'

def value (c : Char) : Option ℕ :=
  if c.isUpper then some (c.toNat - 65)
  else if c.isLower then some (c.toNat - 71)
  else if c.isDigit then some (c.toNat + 4)
  else if c = '-' then some 62
  else if c = '_' then some 63
  else none

def encodeDigits : List ℕ → List ℕ
  | [] => []
  | [a] => [a / 4, 16 * (a % 4)]
  | [a, b] => [a / 4, 16 * (a % 4) + b / 16, 4 * (b % 16)]
  | a :: b :: c :: rest =>
    a / 4 :: (16 * (a % 4) + b / 16) :: (4 * (b % 16) + c / 64) :: c % 64 :: encodeDigits rest

/-- The bits that are left over at the end have to be zero. -/
def decodeDigits : List ℕ → Option (List ℕ)
  | [] => some []
  | [_] => none
  | [w, x] => if x % 16 = 0 then some [4 * w + x / 16] else none
  | [w, x, y] =>
    if y % 4 = 0 then some [4 * w + x / 16, 16 * (x % 16) + y / 4] else none
  | w :: x :: y :: z :: rest =>
    (decodeDigits rest).map fun later =>
      (4 * w + x / 16) :: (16 * (x % 16) + y / 4) :: (64 * (y % 4) + z) :: later

theorem digit_lt_of_mem {bytes : List ℕ} (h : ∀ b ∈ bytes, b < 256) :
    ∀ n ∈ encodeDigits bytes, n < 64 := by
  induction bytes using encodeDigits.induct with
  | case1 => simp [encodeDigits]
  | case2 a =>
    have ha := h a (by simp)
    simp only [encodeDigits, List.forall_mem_cons]
    refine ⟨by omega, by omega, by simp⟩
  | case3 a b =>
    have ha := h a (by simp)
    have hb := h b (by simp)
    simp only [encodeDigits, List.forall_mem_cons]
    refine ⟨by omega, by omega, by omega, by simp⟩
  | case4 a b c rest ih =>
    have ha := h a (by simp)
    have hb := h b (by simp)
    have hc := h c (by simp)
    simp only [encodeDigits, List.forall_mem_cons]
    refine ⟨by omega, by omega, by omega, by omega, ih fun n hn => h n (by simp [hn])⟩

theorem decodeDigits_encodeDigits {bytes : List ℕ} (h : ∀ b ∈ bytes, b < 256) :
    decodeDigits (encodeDigits bytes) = some bytes := by
  induction bytes using encodeDigits.induct with
  | case1 => rfl
  | case2 a =>
    have hlow : 16 * (a % 4) % 16 = 0 := by omega
    have ha : 4 * (a / 4) + 16 * (a % 4) / 16 = a := by omega
    simp only [encodeDigits, decodeDigits, hlow, if_true, ha]
  | case3 a b =>
    have hb := h b (by simp)
    have hlow : 4 * (b % 16) % 4 = 0 := by omega
    have ha : 4 * (a / 4) + (16 * (a % 4) + b / 16) / 16 = a := by omega
    have hb' : 16 * ((16 * (a % 4) + b / 16) % 16) + 4 * (b % 16) / 4 = b := by omega
    simp only [encodeDigits, decodeDigits, hlow, if_true, ha, hb']
  | case4 a b c rest ih =>
    have hb := h b (by simp)
    have hc := h c (by simp)
    have ha : 4 * (a / 4) + (16 * (a % 4) + b / 16) / 16 = a := by omega
    have hb' : 16 * ((16 * (a % 4) + b / 16) % 16) + (4 * (b % 16) + c / 64) / 4 = b := by omega
    have hc' : 64 * ((4 * (b % 16) + c / 64) % 4) + c % 64 = c := by omega
    have hrest := ih fun n hn => h n (by simp [hn])
    simp only [encodeDigits, decodeDigits, hrest, Option.map_some, ha, hb', hc']

theorem value_digit : ∀ n < 64, value (digit n) = some n := by decide

theorem digit_mem : ∀ n < 64,
    ((digit n).isAlphanum || digit n == '-' || digit n == '_') = true := by decide

def encode (bytes : List UInt8) : List Char := (encodeDigits (bytes.map UInt8.toNat)).map digit

def decode (text : List Char) : Option (List UInt8) :=
  (text.mapM value).bind fun digits => (decodeDigits digits).map (·.map UInt8.ofNat)

theorem mapM_value_digit {digits : List ℕ} (h : ∀ n ∈ digits, n < 64) :
    (digits.map digit).mapM value = some digits := by
  induction digits with
  | nil => rfl
  | cons n digits ih =>
    have hrest := ih fun m hm => h m (List.mem_cons_of_mem _ hm)
    simp [List.mapM_cons, value_digit n (h n List.mem_cons_self), hrest]

theorem decode_encode (bytes : List UInt8) : decode (encode bytes) = some bytes := by
  have hbytes : ∀ b ∈ bytes.map UInt8.toNat, b < 256 := by
    intro b hb
    obtain ⟨byte, -, rfl⟩ := List.mem_map.mp hb
    exact byte.toNat_lt
  rw [decode, encode, mapM_value_digit (digit_lt_of_mem hbytes), Option.bind_some,
    decodeDigits_encodeDigits hbytes, Option.map_some, List.map_map]
  have hcomp : UInt8.ofNat ∘ UInt8.toNat = id := funext fun byte => UInt8.ofNat_toNat
  rw [hcomp, List.map_id]

theorem encode_mem (bytes : List UInt8) {c : Char} (hc : c ∈ encode bytes) :
    (c.isAlphanum || c == '-' || c == '_') = true := by
  obtain ⟨n, hn, rfl⟩ := List.mem_map.mp hc
  refine digit_mem n (digit_lt_of_mem (fun b hb => ?_) n hn)
  obtain ⟨byte, -, rfl⟩ := List.mem_map.mp hb
  exact byte.toNat_lt

example : encode [0x2F, 0xFF, 0xFE] = "L__-".toList := by decide

end Base64Url
