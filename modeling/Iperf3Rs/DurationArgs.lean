import Iperf3Rs.DecimalNumeral
import Iperf3Rs.DurationArithmetic
import Mathlib.Order.Bounds.Defs
import Mathlib.Tactic.NormNum
import Mathlib.Tactic.Linarith

/-! The texts in which durations are passed to libiperf: whole seconds, decimal seconds and
milliseconds. -/

namespace Iperf3Rs

/-- `saturating_add` of an unsigned type with `bound` values. -/
def saturatingAdd (bound left right : ℕ) : ℕ :=
  if left + right < bound then left + right else bound - 1

def wholeSecondsArg (duration : Duration) : String :=
  let seconds :=
    if duration.nanos = 0 then duration.secs else saturatingAdd (2 ^ 64) duration.secs 1
  toString seconds

/-- `while value.ends_with('0') { value.pop(); }` -/
def popZeros (value : List Char) : List Char :=
  if value.getLast? = some '0' then popZeros value.dropLast else value
termination_by value.length
decreasing_by
  cases value with
  | nil => simp at *
  | cons c value => simp

def decimalSecondsArg (duration : Duration) : String :=
  let seconds := duration.secs
  let nanos := duration.nanos
  if nanos = 0 then toString seconds
  else
    let value :=
      (toString seconds).toList ++ '.' :: (toString nanos).toList.leftpad 9 '0'
    .ofList (popZeros value)

def asMillis (duration : Duration) : ℕ := duration.secs * 1000 + duration.nanos / 1000000

def millisecondsArg (duration : Duration) : String :=
  let millis := asMillis duration
  let hasFractionalMillis := duration.nanos % 1000000 ≠ 0
  if hasFractionalMillis then toString (saturatingAdd (2 ^ 128) millis 1) else toString millis

theorem saturatingAdd_of_lt {bound left right : ℕ} (h : left + right < bound) :
    saturatingAdd bound left right = left + right := if_pos h

theorem saturatingAdd_eq_min (bound left right : ℕ) :
    saturatingAdd bound left right = min (left + right) (bound - 1) := by
  by_cases h : left + right < bound
  · rw [saturatingAdd_of_lt h, Nat.min_eq_left (by omega)]
  · rw [saturatingAdd, if_neg h, Nat.min_eq_right (by omega)]

/-- The conversion and the rounding of milliseconds stay inside a `u128`. -/
theorem asMillis_lt (duration : Duration) : asMillis duration + 1 < 2 ^ 128 := by
  have hsecs := duration.secs_lt
  have hnanos := duration.nanos_lt
  rw [asMillis]
  omega

theorem toList_toString (n : ℕ) : (toString n).toList = Nat.toDigits 10 n := by
  rw [Nat.toString_eq_repr, Nat.toList_repr]

theorem value_toString (n : ℕ) : DecimalNumeral.value (toString n).toList = n := by
  rw [toList_toString, DecimalNumeral.value_toDigits]

theorem isLeast_milliseconds (duration : Duration) :
    ∃ millis, IsLeast {n : ℕ | duration.asNanos ≤ 10 ^ 6 * n} millis ∧
      millisecondsArg duration = toString millis := by
  have hlt := asMillis_lt duration
  have hnanos := duration.nanos_lt
  by_cases h : duration.nanos % 1000000 = 0
  · refine ⟨asMillis duration, ⟨?_, fun n hn => ?_⟩, by simp [millisecondsArg, h]⟩
    · simp only [Set.mem_ofPred_eq, Duration.asNanos, asMillis]
      omega
    · simp only [Set.mem_ofPred_eq, Duration.asNanos, asMillis] at hn ⊢
      omega
  · refine ⟨asMillis duration + 1, ⟨?_, fun n hn => ?_⟩, ?_⟩
    · simp only [Set.mem_ofPred_eq, Duration.asNanos, asMillis]
      omega
    · simp only [Set.mem_ofPred_eq, Duration.asNanos, asMillis] at hn ⊢
      omega
    · rw [millisecondsArg]
      simp only [ne_eq, h, not_false_eq_true, if_true]
      rw [saturatingAdd_of_lt hlt]

theorem isLeast_wholeSeconds (duration : Duration) :
    ∃ seconds, IsLeast {n : ℕ | duration.asNanos ≤ 10 ^ 9 * n} seconds ∧
      wholeSecondsArg duration = toString (min seconds (2 ^ 64 - 1)) := by
  have hsecs := duration.secs_lt
  have hnanos := duration.nanos_lt
  by_cases h : duration.nanos = 0
  · refine ⟨duration.secs, ⟨?_, fun n hn => ?_⟩, ?_⟩
    · simp only [Set.mem_ofPred_eq, Duration.asNanos]
      omega
    · simp only [Set.mem_ofPred_eq, Duration.asNanos] at hn
      omega
    · have hmin : min duration.secs (2 ^ 64 - 1) = duration.secs := by omega
      rw [hmin, wholeSecondsArg, if_pos h]
  · refine ⟨duration.secs + 1, ⟨?_, fun n hn => ?_⟩, ?_⟩
    · simp only [Set.mem_ofPred_eq, Duration.asNanos]
      omega
    · simp only [Set.mem_ofPred_eq, Duration.asNanos] at hn
      omega
    · rw [wholeSecondsArg, if_neg h, saturatingAdd_eq_min]

theorem popZeros_of_getLast {value : List Char} (h : value.getLast? ≠ some '0') :
    popZeros value = value := by
  rw [popZeros, if_neg h]

/-- The loop takes away the zeros at the end and stops. -/
theorem popZeros_append_zeros {value : List Char} (h : value.getLast? ≠ some '0') (zeros : ℕ) :
    popZeros (value ++ List.replicate zeros '0') = value := by
  induction zeros with
  | zero => rw [List.replicate_zero, List.append_nil, popZeros_of_getLast h]
  | succ zeros ih =>
    rw [List.replicate_succ', ← List.append_assoc, popZeros,
      if_pos (by rw [List.getLast?_concat]), List.dropLast_concat, ih]

/-- The nine digits of the nanoseconds lose only zeros, which do not count. -/
theorem exists_fraction {nanos : ℕ} (hpos : nanos ≠ 0) (hlt : nanos < 10 ^ 9) :
    ∃ fraction zeros,
      (Nat.toDigits 10 nanos).leftpad 9 '0' = fraction ++ List.replicate zeros '0' ∧
      DecimalNumeral.IsFraction fraction ∧
      (Nat.ofDigitChars 10 fraction 0 : ℚ) / 10 ^ fraction.length = nanos / 10 ^ 9 := by
  have hlen : (Nat.toDigits 10 nanos).length ≤ 9 :=
    (Nat.length_toDigits_le_iff (by decide) (by decide)).mpr hlt
  have hvalue : Nat.ofDigitChars 10 ((Nat.toDigits 10 nanos).leftpad 9 '0') 0 = nanos := by
    rw [List.leftpad, DecimalNumeral.ofDigitChars_leading_zeros, Nat.ofDigitChars_ten_toDigits]
  have hnine : ((Nat.toDigits 10 nanos).leftpad 9 '0').length = 9 := by
    rw [List.length_leftpad]
    omega
  have hdigits : ∀ c ∈ (Nat.toDigits 10 nanos).leftpad 9 '0', c.isDigit = true := by
    intro c hc
    rcases List.mem_append.mp hc with hc | hc
    · rw [List.eq_of_mem_replicate hc]
      rfl
    · exact DecimalNumeral.isDigit_toDigits nanos c hc
  obtain ⟨fraction, zeros, heq, hlast⟩ :=
    DecimalNumeral.exists_trailing_zeros ((Nat.toDigits 10 nanos).leftpad 9 '0')
  have hsame := DecimalNumeral.ofDigitChars_trailing_zeros fraction zeros
  rw [heq] at hvalue hnine hdigits
  rw [hvalue, hnine] at hsame
  refine ⟨fraction, zeros, heq, ⟨?_, ?_, hlast⟩, hsame.symm⟩
  · rintro rfl
    rw [List.nil_append, Nat.ofDigitChars_replicate_zero] at hvalue
    omega
  · exact fun c hc => hdigits c (List.mem_append_left _ hc)

/-- The text of a duration with nanoseconds. -/
theorem decimalSecondsArg_point {duration : Duration} (h : duration.nanos ≠ 0) :
    ∃ fraction, DecimalNumeral.IsFraction fraction ∧
      (decimalSecondsArg duration).toList =
        Nat.toDigits 10 duration.secs ++ '.' :: fraction ∧
      (Nat.ofDigitChars 10 fraction 0 : ℚ) / 10 ^ fraction.length =
        duration.nanos / 10 ^ 9 := by
  obtain ⟨fraction, zeros, heq, hfraction, hvalue⟩ := exists_fraction h duration.nanos_lt
  refine ⟨fraction, hfraction, ?_, hvalue⟩
  have hlast : (Nat.toDigits 10 duration.secs ++ '.' :: fraction).getLast? ≠ some '0' := by
    obtain ⟨front, c, rfl⟩ : ∃ front c, fraction = front ++ [c] :=
      ⟨_, _, (List.dropLast_append_getLast hfraction.1).symm⟩
    have hc := hfraction.2.2
    rw [List.getLast?_concat] at hc
    rw [← List.cons_append, ← List.append_assoc, List.getLast?_concat]
    exact hc
  simp only [decimalSecondsArg, if_neg h, toList_toString, heq, String.toList_ofList]
  rw [← List.cons_append, ← List.append_assoc, popZeros_append_zeros hlast]

theorem decimalSecondsArg_whole {duration : Duration} (h : duration.nanos = 0) :
    (decimalSecondsArg duration).toList = Nat.toDigits 10 duration.secs := by
  simp only [decimalSecondsArg, if_pos h, toList_toString]

theorem canonical_decimalSecondsArg (duration : Duration) :
    DecimalNumeral.Canonical (decimalSecondsArg duration).toList := by
  by_cases h : duration.nanos = 0
  · rw [decimalSecondsArg_whole h]
    exact .whole (DecimalNumeral.isWhole_toDigits _)
  · obtain ⟨fraction, hfraction, htext, _⟩ := decimalSecondsArg_point h
    rw [htext]
    exact .point (DecimalNumeral.isWhole_toDigits _) hfraction

theorem point_mem_decimalSecondsArg (duration : Duration) :
    '.' ∈ (decimalSecondsArg duration).toList ↔ duration.nanos ≠ 0 := by
  by_cases h : duration.nanos = 0
  · have hdigits := DecimalNumeral.isDigit_toDigits duration.secs
    rw [decimalSecondsArg_whole h]
    simp [h, DecimalNumeral.point_notMem hdigits]
  · obtain ⟨fraction, _, htext, _⟩ := decimalSecondsArg_point h
    rw [htext]
    simp [h]

theorem value_decimalSecondsArg (duration : Duration) :
    DecimalNumeral.value (decimalSecondsArg duration).toList = duration.asNanos / 10 ^ 9 := by
  by_cases h : duration.nanos = 0
  · rw [decimalSecondsArg_whole h, DecimalNumeral.value_toDigits, Duration.asNanos, h]
    push_cast
    ring
  · obtain ⟨fraction, _, htext, hvalue⟩ := decimalSecondsArg_point h
    rw [htext, DecimalNumeral.value_point (DecimalNumeral.isDigit_toDigits _),
      Nat.ofDigitChars_ten_toDigits, hvalue, Duration.asNanos]
    push_cast
    ring

theorem decimalSecondsArg_injective : Function.Injective decimalSecondsArg := by
  intro d e h
  have hvalue := value_decimalSecondsArg d
  rw [h, value_decimalSecondsArg e] at hvalue
  apply Duration.asNanos_injective
  have hcast : (d.asNanos : ℚ) = e.asNanos := by linarith
  exact_mod_cast hcast

/-- The least multiple of `unit` that is not smaller never decreases. -/
theorem isLeast_mono {unit small large m n : ℕ} (h : small ≤ large)
    (hm : IsLeast {k : ℕ | small ≤ unit * k} m) (hn : IsLeast {k : ℕ | large ≤ unit * k} n) :
    m ≤ n := hm.2 (h.trans hn.1)

theorem isLeast_pos {unit nanos m : ℕ} (h : 0 < nanos)
    (hm : IsLeast {k : ℕ | nanos ≤ unit * k} m) : 0 < m := by
  have hle : nanos ≤ unit * m := hm.1
  rcases Nat.eq_zero_or_pos m with rfl | hpos
  · omega
  · exact hpos

/-- What a rendering must not lose: a duration that is not zero, and the order. -/
structure PreservesIntent (render : Duration → String) : Prop where
  pos : ∀ d, 0 < d.asNanos → 0 < DecimalNumeral.value (render d).toList
  mono : ∀ d e, d.asNanos ≤ e.asNanos →
    DecimalNumeral.value (render d).toList ≤ DecimalNumeral.value (render e).toList

theorem preservesIntent_decimalSecondsArg : PreservesIntent decimalSecondsArg where
  pos := by
    intro d hd
    have hcast : (0 : ℚ) < d.asNanos := by exact_mod_cast hd
    rw [value_decimalSecondsArg]
    exact div_pos hcast (by norm_num)
  mono := by
    intro d e h
    have hcast : (d.asNanos : ℚ) ≤ e.asNanos := by exact_mod_cast h
    rw [value_decimalSecondsArg, value_decimalSecondsArg]
    gcongr

theorem preservesIntent_millisecondsArg : PreservesIntent millisecondsArg where
  pos := by
    intro d hd
    obtain ⟨millis, hleast, htext⟩ := isLeast_milliseconds d
    rw [htext, value_toString]
    exact_mod_cast isLeast_pos hd hleast
  mono := by
    intro d e h
    obtain ⟨m, hm, hd⟩ := isLeast_milliseconds d
    obtain ⟨n, hn, he⟩ := isLeast_milliseconds e
    rw [hd, he, value_toString, value_toString]
    exact_mod_cast isLeast_mono h hm hn

theorem preservesIntent_wholeSecondsArg : PreservesIntent wholeSecondsArg where
  pos := by
    intro d hd
    obtain ⟨seconds, hleast, htext⟩ := isLeast_wholeSeconds d
    have hpos := isLeast_pos hd hleast
    have hmin : 0 < min seconds (2 ^ 64 - 1) := by omega
    rw [htext, value_toString]
    exact_mod_cast hmin
  mono := by
    intro d e h
    obtain ⟨m, hm, hd⟩ := isLeast_wholeSeconds d
    obtain ⟨n, hn, he⟩ := isLeast_wholeSeconds e
    have hle := isLeast_mono h hm hn
    have hmin : min m (2 ^ 64 - 1) ≤ min n (2 ^ 64 - 1) := by omega
    rw [hd, he, value_toString, value_toString]
    exact_mod_cast hmin

theorem duration_args_exact :
    (∀ d, DecimalNumeral.Canonical (decimalSecondsArg d).toList ∧
        ('.' ∈ (decimalSecondsArg d).toList ↔ d.nanos ≠ 0) ∧
        DecimalNumeral.value (decimalSecondsArg d).toList = d.asNanos / 10 ^ 9) ∧
      Function.Injective decimalSecondsArg ∧
      (∀ d, asMillis d + 1 < 2 ^ 128 ∧
        ∃ millis, IsLeast {n : ℕ | d.asNanos ≤ 10 ^ 6 * n} millis ∧
          millisecondsArg d = toString millis) ∧
      (∀ d, ∃ seconds, IsLeast {n : ℕ | d.asNanos ≤ 10 ^ 9 * n} seconds ∧
        wholeSecondsArg d = toString (min seconds (2 ^ 64 - 1))) ∧
      PreservesIntent decimalSecondsArg ∧ PreservesIntent millisecondsArg ∧
      PreservesIntent wholeSecondsArg :=
  ⟨fun d => ⟨canonical_decimalSecondsArg d, point_mem_decimalSecondsArg d,
      value_decimalSecondsArg d⟩,
    decimalSecondsArg_injective, fun d => ⟨asMillis_lt d, isLeast_milliseconds d⟩,
    isLeast_wholeSeconds, preservesIntent_decimalSecondsArg, preservesIntent_millisecondsArg,
    preservesIntent_wholeSecondsArg⟩

end Iperf3Rs
