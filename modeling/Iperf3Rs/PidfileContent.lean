import Iperf3Rs.PidfileChecked
import Iperf3Rs.PidfileOwnership
import Mathlib.Data.List.TakeWhile

/-! What a pidfile may contain. `readPid` follows the reads and the checks on the buffer of
`iperf3rs_pidfile_checked`, with every access to the buffer checked against its size. -/

namespace Iperf3Rs

namespace Pidfile

inductive Stop where
  | outOfBounds (index : ℤ)
  | fails (error : Errno)
  deriving DecidableEq

def byteAt (buf : List UInt8) (index : ℤ) : Except Stop UInt8 :=
  if 0 ≤ index then
    match buf[index.toNat]? with
    | some b => .ok b
    | none => .error (.outOfBounds index)
  else .error (.outOfBounds index)

def put (buf : List UInt8) (index : ℤ) (b : UInt8) : Except Stop (List UInt8) :=
  if 0 ≤ index ∧ index < buf.length then .ok (buf.set index.toNat b)
  else .error (.outOfBounds index)

/-- The loop over `index < length`, with `remaining` bytes to go. -/
def scanDigits (buf : List UInt8) (index : ℤ) : ℕ → Except Stop Unit
  | 0 => .ok ()
  | remaining + 1 =>
    match byteAt buf index with
    | .error e => .error e
    | .ok b =>
      if isDigit b then scanDigits buf (index + 1) remaining else .error (.fails .einval)

/-- The bytes of the buffer before its first NUL, which has to be there. -/
def cString (buf : List UInt8) : Except Stop (List UInt8) :=
  if 0 ∈ buf then .ok (buf.takeWhile (· != 0)) else .error (.outOfBounds buf.length)

def isSpace (b : UInt8) : Bool := b == 32 || (9 ≤ b.toNat && b.toNat ≤ 13)

/-- `strtol` to base 10 with a `long` of 64 bits, and whether it reports `ERANGE`. -/
def strtol (text : List UInt8) : ℤ × Bool :=
  let text := text.dropWhile isSpace
  let magnitude : ℤ := decimal
    ((if text.head? = some 43 ∨ text.head? = some 45 then text.tail else text).takeWhile isDigit)
  let value := if text.head? = some 45 then -magnitude else magnitude
  if 2 ^ 63 ≤ value then (2 ^ 63 - 1, true)
  else if value < -2 ^ 63 then (-2 ^ 63, true)
  else (value, false)

/-- The number in the first `length` bytes of the buffer, from the terminating NUL on. -/
def readNumber (buf : List UInt8) (length : ℤ) : Except Stop ℕ := do
  let buf ← put buf length 0
  scanDigits buf 0 length.toNat
  let text ← cString buf
  let value := (strtol text).1
  let pid := Int.bmod value (2 ^ 32)
  if (strtol text).2 = true ∨ value ≤ 0 ∨ pid ≤ 0 ∨ pid ≠ value then throw (.fails .einval)
  else return pid.toNat

/-- `buf` is the buffer before the reads, and `bytes` the content of the file. -/
def readPid (buf bytes : List UInt8) : Except Stop ℕ :=
  let length : ℤ := min bytes.length (bufferSize - 1)
  let buf := bytes.take length.toNat ++ buf.drop length.toNat
  let remaining : ℤ := min (bytes.length - length) 1
  if remaining ≠ 0 ∨ length = 0 then .error (.fails .einval)
  else
    match byteAt buf (length - 1) with
    | .error e => .error e
    | .ok last =>
      let length := if last = newline then length - 1 else length
      if length = 0 then .error (.fails .einval) else readNumber buf length

/-- The largest value of a `pid_t`. -/
def maxPid : ℕ := 2 ^ 31 - 1

structure Accepted (bytes : List UInt8) (pid : ℕ) : Prop where
  names : NamesPid bytes pid
  short : bytes.length ≤ 4 * 3 + 2
  le_max : pid ≤ maxPid

theorem byteAt_append {front : List UInt8} (b : UInt8) (rest : List UInt8) :
    byteAt (front ++ b :: rest) front.length = .ok b := by
  have hget : (front ++ b :: rest)[front.length]? = some b := by simp
  rw [byteAt, if_pos (Int.natCast_nonneg _), Int.toNat_natCast, hget]

theorem put_append {front : List UInt8} (b c : UInt8) (rest : List UInt8) :
    put (front ++ b :: rest) front.length c = .ok (front ++ c :: rest) := by
  have hbound : (0 : ℤ) ≤ front.length ∧ (front.length : ℤ) < (front ++ b :: rest).length := by
    rw [List.length_append, List.length_cons]
    omega
  rw [put, if_pos hbound, Int.toNat_natCast, List.set_append_right _ _ (Nat.le_refl _),
    Nat.sub_self, List.set_cons_zero]

/-- The loop reads the digits in front of it and nothing else. -/
theorem scanDigits_append (front digits rest : List UInt8) :
    scanDigits (front ++ digits ++ rest) front.length digits.length =
      if digits.all isDigit = true then .ok () else .error (.fails .einval) := by
  induction digits generalizing front with
  | nil => rfl
  | cons b digits ih =>
    have hat : byteAt (front ++ b :: digits ++ rest) front.length = .ok b := by
      rw [List.append_assoc, List.cons_append]
      exact byteAt_append b _
    have hnext := ih (front ++ [b])
    rw [List.append_assoc front [b] digits, List.singleton_append, List.length_append] at hnext
    rw [List.length_cons, scanDigits, hat]
    by_cases hb : isDigit b = true
    · simp only [hb, if_true, List.all_cons, Bool.true_and]
      exact hnext
    · simp only [hb, List.all_cons, Bool.false_and]
      rfl

theorem scanDigits_start (digits rest : List UInt8) :
    scanDigits (digits ++ rest) 0 digits.length =
      if digits.all isDigit = true then .ok () else .error (.fails .einval) :=
  scanDigits_append [] digits rest

theorem digit_ne_zero {b : UInt8} (h : isDigit b = true) : (b != 0) = true := by
  rw [bne_iff_ne]
  rintro rfl
  cases h

theorem cString_append {digits : List UInt8} (h : ∀ b ∈ digits, isDigit b = true)
    (rest : List UInt8) : cString (digits ++ 0 :: rest) = .ok digits := by
  have hmem : (0 : UInt8) ∈ digits ++ 0 :: rest := List.mem_append_right _ List.mem_cons_self
  rw [cString, if_pos hmem, List.takeWhile_append_of_pos fun b hb => digit_ne_zero (h b hb)]
  simp

/-- On digits, `strtol` skips nothing and takes everything. -/
theorem strtol_digits {digits : List UInt8} (hne : digits ≠ [])
    (h : ∀ b ∈ digits, isDigit b = true) :
    strtol digits =
      if 2 ^ 63 ≤ decimal digits then (2 ^ 63 - 1, true) else ((decimal digits : ℤ), false) := by
  obtain ⟨b, rest, rfl⟩ : ∃ b rest, digits = b :: rest := List.exists_cons_of_ne_nil hne
  have hb := h b List.mem_cons_self
  have hrange : 48 ≤ b.toNat ∧ b.toNat ≤ 57 := by
    simpa [isDigit] using hb
  have hspace : isSpace b = false := by
    have h32 : b ≠ 32 := by
      rintro rfl
      cases hb
    simp only [isSpace, Bool.or_eq_false_iff, Bool.and_eq_false_iff, beq_eq_false_iff_ne,
      decide_eq_false_iff_not]
    exact ⟨h32, by omega⟩
  have hsign : ∀ sign : UInt8, isDigit sign = false → (b :: rest).head? ≠ some sign := by
    rintro sign hsign heq
    cases heq
    rw [hsign] at hb
    cases hb
  have htake : (b :: rest).takeWhile isDigit = b :: rest := List.takeWhile_eq_self_iff.mpr h
  rw [strtol]
  simp only [List.dropWhile_cons_of_neg (by simp [hspace] : ¬isSpace b = true), hsign 43 rfl,
    hsign 45 rfl, or_self, if_false, htake]
  by_cases hlarge : 2 ^ 63 ≤ decimal (b :: rest)
  · have hcast : (2 : ℤ) ^ 63 ≤ decimal (b :: rest) := by omega
    rw [if_pos hlarge, if_pos hcast]
  · have hcast : ¬(2 : ℤ) ^ 63 ≤ decimal (b :: rest) := by omega
    have hneg : ¬(decimal (b :: rest) : ℤ) < -2 ^ 63 := by omega
    rw [if_neg hlarge, if_neg hcast, if_neg hneg]

/-- What `parsePid` makes of the bytes before a newline. -/
def parseDigits (digits : List UInt8) : Option ℕ :=
  if !digits.all isDigit then none
  else
    let value := decimal digits
    let pid := Int.bmod value (2 ^ 32)
    if 2 ^ 63 ≤ value ∨ value = 0 ∨ pid ≤ 0 ∨ pid ≠ value then none else some value

def withoutNewline (buf : List UInt8) : List UInt8 :=
  if buf.getLast? = some newline then buf.dropLast else buf

theorem parsePid_eq (buf : List UInt8) :
    parsePid buf =
      if withoutNewline buf = [] then none else parseDigits (withoutNewline buf) := rfl

theorem withoutNewline_concat (init : List UInt8) :
    withoutNewline (init ++ [newline]) = init := by
  rw [withoutNewline, if_pos List.getLast?_concat, List.dropLast_concat]

theorem withoutNewline_of_ne {buf : List UInt8} (h : buf.getLast? ≠ some newline) :
    withoutNewline buf = buf := if_neg h

def asRead : Option ℕ → Except Stop ℕ
  | some pid => .ok pid
  | none => .error (.fails .einval)

theorem readNumber_append {digits : List UInt8} (hne : digits ≠ []) (b : UInt8)
    (rest : List UInt8) :
    readNumber (digits ++ b :: rest) digits.length = asRead (parseDigits digits) := by
  have hscan := scanDigits_start digits (0 :: rest)
  rw [readNumber, put_append, Int.toNat_natCast]
  by_cases hall : digits.all isDigit = true
  · have hdigits := List.all_eq_true.mp hall
    rw [if_pos hall] at hscan
    simp only [bind, Except.bind, hscan, cString_append hdigits, strtol_digits hne hdigits,
      parseDigits, hall, Bool.not_true, Bool.false_eq_true, if_false]
    by_cases hlarge : 2 ^ 63 ≤ decimal digits
    · simp only [hlarge, true_or, if_true]
      rfl
    · simp only [hlarge, false_or, if_false, Bool.false_eq_true]
      generalize decimal digits = value
      have hzero : (value : ℤ) ≤ 0 ↔ value = 0 := by omega
      simp only [hzero]
      by_cases hbad : value = 0 ∨ Int.bmod value (2 ^ 32) ≤ 0 ∨ Int.bmod value (2 ^ 32) ≠ value
      · rw [if_pos hbad, if_pos hbad]
        rfl
      · have hcast : Int.bmod value (2 ^ 32) = value := by
          by_contra hne
          exact hbad (.inr (.inr hne))
        rw [if_neg hbad, if_neg hbad, hcast]
        rfl
  · rw [if_neg hall] at hscan
    simp only [bind, Except.bind, hscan, parseDigits, hall, Bool.not_false, if_true]
    rfl

theorem readPid_eq {buf : List UInt8} (hbuf : buf.length = bufferSize) (bytes : List UInt8) :
    readPid buf bytes =
      if bytes.length ≤ bufferSize - 1 then asRead (parsePid bytes)
      else .error (.fails .einval) := by
  have hsize : bufferSize = 15 := rfl
  rw [readPid]
  by_cases hlen : bytes.length ≤ bufferSize - 1
  · have hlength : min (bytes.length : ℤ) ((bufferSize : ℤ) - 1) = bytes.length := by omega
    obtain ⟨b, rest, hrest⟩ : ∃ b rest, buf.drop bytes.length = b :: rest := by
      apply List.exists_cons_of_ne_nil
      intro hnil
      have hdrop := congrArg List.length hnil
      rw [List.length_drop, List.length_nil] at hdrop
      omega
    simp only [hlength, if_pos hlen, Int.toNat_natCast, List.take_length, hrest]
    rcases List.eq_nil_or_concat' bytes with rfl | ⟨init, last, rfl⟩
    · rfl
    · have hlast : ((init ++ [last]).length : ℤ) - 1 = init.length := by
        rw [List.length_append, List.length_singleton]
        omega
      have hmore : ¬(min (((init ++ [last]).length : ℤ) - (init ++ [last]).length) 1 ≠ 0 ∨
          ((init ++ [last]).length : ℤ) = 0) := by
        rw [List.length_append, List.length_singleton]
        omega
      have hat : byteAt (init ++ [last] ++ b :: rest) init.length = .ok last := by
        rw [List.append_assoc]
        exact byteAt_append last _
      rw [if_neg hmore, hlast, hat, parsePid_eq]
      by_cases hnewline : last = newline
      · simp only [hnewline, withoutNewline_concat, if_true]
        by_cases hinit : init = []
        · rw [if_pos hinit, hinit]
          rfl
        · have hpos : ¬(init.length : ℤ) = 0 := by
            have hne := mt List.length_eq_zero_iff.mp hinit
            omega
          rw [if_neg hpos, if_neg hinit, List.append_assoc]
          exact readNumber_append hinit newline _
      · have hne : init ++ [last] ≠ [] := by simp
        have hpos : ¬((init ++ [last]).length : ℤ) = 0 := fun h => hmore (.inr h)
        have hsame : withoutNewline (init ++ [last]) = init ++ [last] := by
          apply withoutNewline_of_ne
          rw [List.getLast?_concat]
          simpa using hnewline
        simp only [hnewline, if_false, hsame, if_neg hne, if_neg hpos]
        exact readNumber_append hne b rest
  · have hfull : min ((bytes.length : ℤ) - min (bytes.length : ℤ) ((bufferSize : ℤ) - 1)) 1 ≠ 0 := by
      omega
    rw [if_pos (.inl hfull), if_neg hlen]

theorem parseDigits_eq_some {digits : List UInt8} {pid : ℕ} :
    parseDigits digits = some pid ↔ (∀ b ∈ digits, isDigit b = true) ∧ decimal digits = pid ∧
      0 < pid ∧ pid ≤ maxPid := by
  have hmax : maxPid = 2 ^ 31 - 1 := rfl
  rw [parseDigits]
  by_cases hall : digits.all isDigit = true
  · have hdigits := List.all_eq_true.mp hall
    simp only [hall, Bool.not_true, Bool.false_eq_true, if_false]
    generalize decimal digits = value
    by_cases hrange : 0 < value ∧ value ≤ maxPid
    · have hcast : Int.bmod value (2 ^ 32) = value := by
        rw [Int.bmod_eq_of_le] <;> omega
      have hgood : ¬(2 ^ 63 ≤ value ∨ value = 0 ∨ Int.bmod value (2 ^ 32) ≤ 0 ∨
          Int.bmod value (2 ^ 32) ≠ value) := by
        rw [hcast]
        omega
      rw [if_neg hgood, Option.some.injEq]
      constructor
      · rintro rfl
        exact ⟨hdigits, rfl, hrange⟩
      · exact fun h => h.2.1
    · have hbad : 2 ^ 63 ≤ value ∨ value = 0 ∨ Int.bmod value (2 ^ 32) ≤ 0 ∨
          Int.bmod value (2 ^ 32) ≠ value := by
        by_cases hzero : value = 0
        · exact .inr (.inl hzero)
        · have hlt := Int.bmod_lt (x := value) (m := 2 ^ 32) (by decide)
          refine .inr (.inr (.inr fun heq => ?_))
          rw [heq] at hlt
          omega
      rw [if_pos hbad]
      constructor
      · intro h
        cases h
      · rintro ⟨-, rfl, h⟩
        exact absurd h hrange
  · simp only [hall, Bool.not_false, if_true]
    constructor
    · intro h
      cases h
    · exact fun h => absurd (List.all_eq_true.mpr h.1) hall

theorem getLast?_digits {digits : List UInt8} (h : ∀ b ∈ digits, isDigit b = true) :
    digits.getLast? ≠ some newline := by
  intro hlast
  cases h newline (List.mem_of_getLast? hlast)

theorem parsePid_eq_some {bytes : List UInt8} {pid : ℕ} :
    parsePid bytes = some pid ↔ NamesPid bytes pid ∧ pid ≤ maxPid := by
  constructor
  · intro h
    refine ⟨namesPid_of_parse h, ?_⟩
    rw [parsePid_eq] at h
    by_cases hne : withoutNewline bytes = []
    · rw [if_pos hne] at h
      cases h
    · rw [if_neg hne] at h
      exact (parseDigits_eq_some.mp h).2.2.2
  · rintro ⟨⟨hpos, digits, hne, hdigits, hvalue, hbytes⟩, hle⟩
    have hdigitsPid := parseDigits_eq_some.mpr ⟨hdigits, hvalue, hpos, hle⟩
    rcases hbytes with rfl | rfl
    · rw [parsePid_eq, withoutNewline_of_ne (getLast?_digits hdigits), if_neg hne, hdigitsPid]
    · rw [parsePid_eq, withoutNewline_concat, if_neg hne, hdigitsPid]

theorem accepted_iff {bytes : List UInt8} {pid : ℕ} :
    Accepted bytes pid ↔ bytes.length ≤ bufferSize - 1 ∧ parsePid bytes = some pid := by
  rw [parsePid_eq_some]
  constructor
  · exact fun h => ⟨h.short, h.names, h.le_max⟩
  · exact fun h => ⟨h.2.1, h.1, h.2.2⟩

theorem readPid_eq_ok {buf : List UInt8} (hbuf : buf.length = bufferSize) {bytes : List UInt8}
    {pid : ℕ} : readPid buf bytes = .ok pid ↔ Accepted bytes pid := by
  rw [readPid_eq hbuf, accepted_iff]
  by_cases hlen : bytes.length ≤ bufferSize - 1
  · rw [if_pos hlen]
    cases parsePid bytes with
    | none => simp [asRead]
    | some n => simp [asRead, hlen]
  · rw [if_neg hlen]
    simp [hlen]

/-- Every other content fails, and with `EINVAL`. -/
theorem readPid_eq_error {buf : List UInt8} (hbuf : buf.length = bufferSize) {bytes : List UInt8}
    (h : ∀ pid, ¬Accepted bytes pid) : readPid buf bytes = .error (.fails .einval) := by
  rw [readPid_eq hbuf]
  by_cases hlen : bytes.length ≤ bufferSize - 1
  · rw [if_pos hlen]
    cases hparse : parsePid bytes with
    | none => rfl
    | some pid => exact absurd (accepted_iff.mpr ⟨hlen, hparse⟩) (h pid)
  · rw [if_neg hlen]

/-- The calls of `iperf3rs_pidfile_checked` on files that nobody else touches. -/
def Call.run (caller : ℕ) (files : Files) (c : Call) : List Outcome → Option (Files × Call)
  | [] => some (files, c)
  | outcome :: outcomes =>
    match c.step Observer.null caller files outcome with
    | some (files, _, c) => Call.run caller files c outcomes
    | none => none

/-- The open, `fstat` and both reads succeed, and the first read returns all it may. -/
def wholeRead (bytes : List UInt8) : List Outcome :=
  [.ok, .ok, .took (min bytes.length (bufferSize - 1)), .ok]

/-- Where the call stands after the reads. -/
def afterReads (id : Identity) : Except Stop ℕ → Pc
  | .ok pid => .probe ⟨id, pid⟩
  | .error (.fails e) => .returned (.error e)
  | .error (.outOfBounds _) => .returned (.error .einval)

section Steps

variable {files : Files} {id : Identity} {bytes buf : List UInt8} (caller : ℕ)

theorem step_openRead (hentry : files.entry = some (.inode id))
    (hnode : files.node id = some (.regular bytes)) :
    Call.step Observer.null caller files .start .ok =
      some (files, .none, ⟨.statRead id, false, none⟩) := by
  simp only [Call.step, Call.start, Observer.null, hentry, hnode, Option.isSome_some, if_true]

theorem step_statRead (hnode : files.node id = some (.regular bytes)) :
    Call.step Observer.null caller files ⟨.statRead id, false, none⟩ .ok =
      some (files, .statted id, ⟨.read id, false, none⟩) := by
  simp only [Call.step, Observer.null, hnode]

theorem step_read (hnode : files.node id = some (.regular bytes)) :
    Call.step Observer.null caller files ⟨.read id, false, none⟩
        (.took (min bytes.length (bufferSize - 1))) =
      some (files, .none,
        ⟨.readExtra id (bytes.take (min bytes.length (bufferSize - 1))), false, none⟩) := by
  have hsize : bufferSize = 15 := rfl
  have hcount : min bytes.length (bufferSize - 1) ≤ bufferSize - 1 ∧
      min bytes.length (bufferSize - 1) ≤ bytes.length ∧
      (min bytes.length (bufferSize - 1) = 0 → bytes = []) := by
    refine ⟨by omega, by omega, fun h => ?_⟩
    apply List.length_eq_zero_iff.mp
    omega
  simp only [Call.step, hnode]
  rw [if_pos hcount]

theorem step_readExtra (hnode : files.node id = some (.regular bytes)) :
    ∃ event, Call.step Observer.null caller files
        ⟨.readExtra id (bytes.take (min bytes.length (bufferSize - 1))), false, none⟩ .ok =
      some (files, event,
        ⟨afterReads id (if bytes.length ≤ bufferSize - 1 then asRead (parsePid bytes)
          else .error (.fails .einval)), false, none⟩) := by
  have hsize : bufferSize = 15 := rfl
  by_cases hlen : bytes.length ≤ bufferSize - 1
  · have htake : bytes.take (min bytes.length (bufferSize - 1)) = bytes := by
      rw [Nat.min_eq_left hlen, List.take_length]
    rw [htake, if_pos hlen]
    by_cases hempty : bytes = []
    · refine ⟨.none, ?_⟩
      simp only [Call.step, hnode, hempty, or_true, if_true]
      rfl
    · have hwhole : ¬(bytes.length < bytes.length ∨ bytes = []) := by
        simp [hempty]
      simp only [Call.step, hnode, if_neg hwhole, Observer.null]
      cases parsePid bytes with
      | none => exact ⟨_, rfl⟩
      | some pid => exact ⟨_, rfl⟩
  · have hmore : (bytes.take (min bytes.length (bufferSize - 1))).length < bytes.length ∨
        bytes.take (min bytes.length (bufferSize - 1)) = [] := by
      left
      rw [List.length_take]
      omega
    refine ⟨.none, ?_⟩
    simp only [Call.step, hnode, if_pos hmore, if_neg hlen]
    rfl

theorem run_wholeRead (hentry : files.entry = some (.inode id))
    (hnode : files.node id = some (.regular bytes)) (hbuf : buf.length = bufferSize) :
    Call.run caller files .start (wholeRead bytes) =
      some (files, ⟨afterReads id (readPid buf bytes), false, none⟩) := by
  obtain ⟨event, hextra⟩ := step_readExtra caller hnode
  rw [readPid_eq hbuf]
  simp only [wholeRead, Call.run, step_openRead caller hentry hnode, step_statRead caller hnode,
    step_read caller hnode, hextra]

theorem run_wholeRead_probe {pid : ℕ} (hentry : files.entry = some (.inode id))
    (hnode : files.node id = some (.regular bytes)) (h : Accepted bytes pid) :
    Call.run caller files .start (wholeRead bytes) =
      some (files, ⟨.probe ⟨id, pid⟩, false, none⟩) := by
  have hbuf : (List.replicate bufferSize 0 : List UInt8).length = bufferSize :=
    List.length_replicate
  rw [run_wholeRead caller hentry hnode hbuf, (readPid_eq_ok hbuf).mpr h]
  rfl

theorem readPid_inBounds (hbuf : buf.length = bufferSize) (index : ℤ) :
    readPid buf bytes ≠ .error (.outOfBounds index) := by
  by_cases h : ∃ pid, Accepted bytes pid
  · obtain ⟨pid, h⟩ := h
    rw [(readPid_eq_ok hbuf).mpr h]
    intro he
    cases he
  · rw [readPid_eq_error hbuf (not_exists.mp h)]
    intro he
    cases he

theorem step_write {own : ℕ} (hlen : (pidText own).length < bufferSize)
    (hpos : (pidText own).length ≠ 0) (hnode : files.node id = some (.regular []))
    (owned : Bool) (identity : Option Identity) :
    Call.step Observer.null own files ⟨.write id, owned, identity⟩
        (.took (pidText own).length) =
      some (files.setNode id (some (.regular (pidText own))), .wrote id,
        ⟨.closeWrite id, owned, identity⟩) := by
  have hfits : ¬((pidText own).length = 0 ∨ bufferSize ≤ (pidText own).length) := by omega
  simp only [Call.step, if_neg hfits, hnode, Nat.le_refl, if_true, List.take_length,
    List.drop_nil, List.append_nil]

end Steps

theorem length_pidText (pid : ℕ) : (pidText pid).length = (Nat.toDigits 10 pid).length := by
  have hencode : ∀ chars : List Char, (∀ c ∈ chars, c.isDigit = true) →
      (chars.flatMap String.utf8EncodeChar).length = chars.length := by
    intro chars h
    induction chars with
    | nil => rfl
    | cons c chars ih =>
      obtain ⟨b, hb, -⟩ := isDigit_of_char (h c List.mem_cons_self)
      rw [List.flatMap_cons, hb, List.singleton_append, List.length_cons, List.length_cons,
        ih fun d hd => h d (List.mem_cons_of_mem _ hd)]
  have hchars : (toString pid).toList = Nat.toDigits 10 pid := by
    rw [Nat.toString_eq_repr, Nat.toList_repr]
  rw [pidText, Text.bytes, hchars]
  exact hencode _ fun c hc => Nat.isDigit_of_mem_toDigits (by decide) (by decide) hc

theorem length_pidText_le {pid : ℕ} (h : pid ≤ maxPid) : (pidText pid).length ≤ 10 := by
  have hmax : maxPid = 2 ^ 31 - 1 := rfl
  rw [length_pidText]
  exact (Nat.length_toDigits_le_iff (by decide) (by decide)).mpr (by omega)

theorem pidText_ne_nil (pid : ℕ) : pidText pid ≠ [] := by
  intro h
  have hlen := length_pidText pid
  rw [h, List.length_nil] at hlen
  exact Nat.toDigits_ne_nil (List.length_eq_zero_iff.mp hlen.symm)

theorem accepted_pidText {pid : ℕ} (hpos : 0 < pid) (hle : pid ≤ maxPid) :
    Accepted (pidText pid) pid where
  names := ⟨hpos, pidText pid, pidText_ne_nil pid, isDigit_pidText pid, decimal_pidText pid,
    .inl rfl⟩
  short := by
    have hlen := length_pidText_le hle
    omega
  le_max := hle

/-- The files after a process has written its pid into the empty pidfile. -/
def written (files : Files) (id : Identity) (own : ℕ) : Files :=
  files.setNode id (some (.regular (pidText own)))

/-- The file a process has written names it, so that a later call finds it alive. -/
structure Recognized (caller : ℕ) (files : Files) (id : Identity) (own : ℕ) : Prop where
  fits : (pidText own).length < bufferSize
  writes : ∀ owned identity, Call.step Observer.null own files ⟨.write id, owned, identity⟩
      (.took (pidText own).length) =
    some (written files id own, .wrote id, ⟨.closeWrite id, owned, identity⟩)
  probes : Call.run caller (written files id own) .start (wholeRead (pidText own)) =
    some (written files id own, ⟨.probe ⟨id, own⟩, false, none⟩)
  alive : Call.step Observer.null caller (written files id own) ⟨.probe ⟨id, own⟩, false, none⟩
      .ok = some (written files id own, .none, ⟨.returned (.error .eexist), false, none⟩)

theorem recognized {files : Files} {id : Identity} {own : ℕ} (caller : ℕ)
    (hentry : files.entry = some (.inode id)) (hnode : files.node id = some (.regular []))
    (hpos : 0 < own) (hle : own ≤ maxPid) : Recognized caller files id own where
  fits := by
    have hlen := length_pidText_le hle
    have hsize : bufferSize = 15 := rfl
    omega
  writes := by
    have hlen := length_pidText_le hle
    have hsize : bufferSize = 15 := rfl
    have hne := mt List.length_eq_zero_iff.mp (pidText_ne_nil own)
    exact step_write (by omega) hne hnode
  probes := by
    have hwritten : (written files id own).node id = some (.regular (pidText own)) :=
      Function.update_self _ _ _
    exact run_wholeRead_probe caller hentry hwritten (accepted_pidText hpos hle)
  alive := rfl

theorem pidfile_content {files : Files} {id : Identity} {bytes buf : List UInt8} (caller : ℕ)
    (hentry : files.entry = some (.inode id)) (hnode : files.node id = some (.regular bytes))
    (hbuf : buf.length = bufferSize) :
    (∃ c, Call.run caller files .start (wholeRead bytes) = some (files, c) ∧
      (∀ observed, c.pc = .probe observed ↔
        observed.id = id ∧ Accepted bytes observed.pid) ∧
      ((∀ pid, ¬Accepted bytes pid) → c.pc = .returned (.error .einval)) ∧
      c.pc = afterReads id (readPid buf bytes)) ∧
      (∀ index, readPid buf bytes ≠ .error (.outOfBounds index)) ∧
      ∀ own, 0 < own → own ≤ maxPid → ∀ empty : Files, empty.entry = some (.inode id) →
        empty.node id = some (.regular []) → Recognized caller empty id own := by
  refine ⟨⟨_, run_wholeRead caller hentry hnode hbuf, fun observed => ?_, fun h => ?_, rfl⟩,
    readPid_inBounds hbuf, fun own hpos hle empty hentry hnode =>
      recognized caller hentry hnode hpos hle⟩
  · rw [← readPid_eq_ok hbuf]
    cases readPid buf bytes with
    | ok pid =>
      obtain ⟨id', pid'⟩ := observed
      simp [afterReads, eq_comm]
    | error e =>
      cases e with
      | outOfBounds index => simp [afterReads]
      | fails e => simp [afterReads]
  · rw [readPid_eq_error hbuf h]
    rfl

theorem pidfile_content_stale :
    (∃ c, Call.run 34 staleFiles .start (wholeRead [49, 50, 10]) = some (staleFiles, c) ∧
      (∀ observed, c.pc = .probe observed ↔
        observed.id = ⟨1, 7⟩ ∧ Accepted [49, 50, 10] observed.pid) ∧
      ((∀ pid, ¬Accepted [49, 50, 10] pid) → c.pc = .returned (.error .einval)) ∧
      c.pc = afterReads ⟨1, 7⟩ (readPid (List.replicate 15 0) [49, 50, 10])) ∧
      (∀ index, readPid (List.replicate 15 0) [49, 50, 10] ≠ .error (.outOfBounds index)) ∧
      ∀ own, 0 < own → own ≤ maxPid → ∀ empty : Files, empty.entry = some (.inode ⟨1, 7⟩) →
        empty.node ⟨1, 7⟩ = some (.regular []) → Recognized 34 empty ⟨1, 7⟩ own :=
  pidfile_content 34 rfl rfl rfl

end Pidfile

end Iperf3Rs
