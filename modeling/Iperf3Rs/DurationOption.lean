import Iperf3Rs.Args
import Iperf3Rs.DurationArithmetic
import Mathlib.Data.List.Induction

/-! The durations among the option values. `parseDurationOptionCall` follows the source branch by
branch, with the panics of its `expect` calls. -/

namespace Iperf3Rs

namespace Args

variable {Url : Type} (P : Platform Url)

/-- How a call ends whose code may panic. -/
inductive Called (α : Type) where
  | returned (value : α)
  | panicked (message : String)

/-- One branch of the source: a number with its unit, and what becomes of a duration that does
not fit. -/
def durationCall (option raw number : String) (unit : DurationUnit)
    (overflow : Called (Except String Duration)) : Called (Except String Duration) :=
  match parseDurationNumber option raw number with
  | .error e => .returned (.error e)
  | .ok n => match durationFromNumber n unit with
    | some duration => .returned (.ok duration)
    | none => overflow

/-- The `if let` chain over the suffixes. -/
def parseDurationCall (option raw : String) : Called (Except String Duration) :=
  match Text.stripSuffix raw "ms" with
  | some number => durationCall option raw number .milliseconds
      (.panicked "millisecond durations cannot overflow")
  | none => match Text.stripSuffix raw "s" with
    | some number => durationCall option raw number .seconds
        (.panicked "second durations cannot overflow")
    | none => match Text.stripSuffix raw "m" with
      | some number => durationCall option raw number .minutes
          (.returned (.error s!"{option} is too large: {raw}"))
      | none => durationCall option raw raw .seconds
          (.panicked "second durations cannot overflow")

def parseDurationOptionCall (option raw : String) : Called (Except String Duration) :=
  let raw := Text.trim raw
  if raw = "" then .returned (.error s!"{option} must not be empty")
  else match parseDurationCall option raw with
    | .panicked message => .panicked message
    | .returned (.error e) => .returned (.error e)
    | .returned (.ok duration) =>
      if duration.isZero then .returned (.error s!"{option} must be greater than zero")
      else match P.checkedDeadline duration with
        | .error err => .returned (.error s!"invalid {option}: {err.message}")
        | .ok _ => .returned (.ok duration)

namespace DurationUnit

def suffixes : DurationUnit → List String
  | .milliseconds => ["ms"]
  | .seconds => ["s", ""]
  | .minutes => ["m"]

def asNanos : DurationUnit → ℕ
  | .milliseconds => 10 ^ 6
  | .seconds => 10 ^ 9
  | .minutes => 60 * 10 ^ 9

end DurationUnit

/-- The text is a number followed at once by a spelling of its unit. -/
def Spells (text : String) (n : ℕ) (unit : DurationUnit) : Prop :=
  ∃ number suffix, suffix ∈ unit.suffixes ∧ text = number ++ suffix ∧
    Text.parseUnsigned (2 ^ 64) number = some n

/-- The number and the unit that the suffixes leave. -/
def splitUnit (raw : String) : String × DurationUnit :=
  match Text.stripSuffix raw "ms" with
  | some number => (number, .milliseconds)
  | none => match Text.stripSuffix raw "s" with
    | some number => (number, .seconds)
    | none => match Text.stripSuffix raw "m" with
      | some number => (number, .minutes)
      | none => (raw, .seconds)

theorem parseDurationNumber_eq_ok {option raw number : String} {n : ℕ} :
    parseDurationNumber option raw number = .ok n ↔
      Text.parseUnsigned (2 ^ 64) number = some n := by
  rw [parseDurationNumber]
  by_cases h : number = ""
  · rw [if_pos h, h]
    constructor
    · intro he
      cases he
    · intro hp
      cases hp
  · rw [if_neg h]
    cases hp : Text.parseUnsigned (2 ^ 64) number with
    | none => simp
    | some m => simp

theorem durationOfSecs_eq_some {secs : ℕ} {d : Duration} :
    durationOfSecs secs = some d ↔ secs < 2 ^ 64 ∧ d.asNanos = 10 ^ 9 * secs := by
  rw [durationOfSecs]
  by_cases h : secs < 2 ^ 64
  · rw [dif_pos h, Option.some.injEq]
    constructor
    · rintro rfl
      exact ⟨h, rfl⟩
    · rintro ⟨-, hd⟩
      apply Duration.asNanos_injective
      rw [hd]
      rfl
  · rw [dif_neg h]
    constructor
    · intro hnone
      cases hnone
    · rintro ⟨hlt, -⟩
      exact absurd hlt h

/-- The `u64` values that fit, for each unit. -/
def Fits (n : ℕ) : DurationUnit → Prop
  | .minutes => 60 * n < 2 ^ 64
  | _ => True

theorem durationFromNumber_eq_some {n : ℕ} (hn : n < 2 ^ 64) {unit : DurationUnit}
    {d : Duration} :
    durationFromNumber n unit = some d ↔ Fits n unit ∧ d.asNanos = n * unit.asNanos := by
  cases unit with
  | milliseconds =>
    have hlt : n / 1000 < 2 ^ 64 := by omega
    have hd := Duration.asNanos_fromMillis n hn
    rw [durationFromNumber, dif_pos hlt, Option.some.injEq]
    constructor
    · rintro rfl
      refine ⟨trivial, ?_⟩
      rw [Nat.mul_comm n]
      exact hd
    · rintro ⟨-, hnanos⟩
      apply Duration.asNanos_injective
      rw [hnanos, Nat.mul_comm n]
      exact hd
  | seconds =>
    rw [durationFromNumber, durationOfSecs_eq_some, Nat.mul_comm n]
    exact ⟨fun h => ⟨trivial, h.2⟩, fun h => ⟨hn, h.2⟩⟩
  | minutes =>
    have hnanos : n * DurationUnit.minutes.asNanos = 10 ^ 9 * (60 * n) := by
      rw [DurationUnit.asNanos]
      omega
    rw [durationFromNumber, durationOfSecs_eq_some, hnanos]
    rfl

theorem exists_durationFromNumber {n : ℕ} (hn : n < 2 ^ 64) {unit : DurationUnit}
    (h : Fits n unit) : ∃ d, durationFromNumber n unit = some d := by
  cases unit with
  | milliseconds =>
    have hlt : n / 1000 < 2 ^ 64 := by omega
    exact ⟨_, dif_pos hlt⟩
  | seconds => exact ⟨_, dif_pos hn⟩
  | minutes => exact ⟨_, dif_pos h⟩

/-- The result of a branch when no number of its unit panics. -/
def durationOf (option raw number : String) (unit : DurationUnit) : Except String Duration :=
  match parseDurationNumber option raw number with
  | .error e => .error e
  | .ok n => match durationFromNumber n unit with
    | some duration => .ok duration
    | none => .error s!"{option} is too large: {raw}"

theorem parseDuration_eq (option raw : String) :
    parseDuration option raw = durationOf option raw (splitUnit raw).1 (splitUnit raw).2 := rfl

theorem durationCall_minutes (option raw number : String) :
    durationCall option raw number .minutes
        (.returned (.error s!"{option} is too large: {raw}")) =
      .returned (durationOf option raw number .minutes) := by
  rw [durationCall, durationOf]
  cases parseDurationNumber option raw number with
  | error e => rfl
  | ok n =>
    dsimp only
    cases durationFromNumber n .minutes with
    | none => rfl
    | some d => rfl

/-- Milliseconds and seconds always fit, so what the overflow would do does not matter. -/
theorem durationCall_of_fits {unit : DurationUnit} (hunit : ∀ n, Fits n unit)
    (option raw number : String) (overflow : Called (Except String Duration)) :
    durationCall option raw number unit overflow =
      .returned (durationOf option raw number unit) := by
  rw [durationCall, durationOf]
  cases hnumber : parseDurationNumber option raw number with
  | error e => rfl
  | ok n =>
    have hlt := Text.parseUnsigned_lt (parseDurationNumber_eq_ok.mp hnumber)
    cases hd : durationFromNumber n unit with
    | some d => simp only [hd]
    | none =>
      obtain ⟨d, hd'⟩ := exists_durationFromNumber hlt (hunit n)
      rw [hd] at hd'
      cases hd'

theorem fits_milliseconds (n : ℕ) : Fits n .milliseconds := trivial

theorem fits_seconds (n : ℕ) : Fits n .seconds := trivial

theorem parseDurationCall_eq (option raw : String) :
    parseDurationCall option raw = .returned (parseDuration option raw) := by
  rw [parseDuration_eq, parseDurationCall, splitUnit]
  cases Text.stripSuffix raw "ms" with
  | some number => exact durationCall_of_fits fits_milliseconds option raw number _
  | none =>
    cases Text.stripSuffix raw "s" with
    | some number => exact durationCall_of_fits fits_seconds option raw number _
    | none =>
      cases Text.stripSuffix raw "m" with
      | some number => exact durationCall_minutes option raw number
      | none => exact durationCall_of_fits fits_seconds option raw raw _

/-- No `expect` is ever reached with an overflow. -/
theorem parseDurationOptionCall_eq (option raw : String) :
    parseDurationOptionCall P option raw = .returned (parseDurationOption P option raw) := by
  rw [parseDurationOptionCall, parseDurationOption]
  by_cases hraw : Text.trim raw = ""
  · rw [if_pos hraw, if_pos hraw]
  · rw [if_neg hraw, if_neg hraw, parseDurationCall_eq]
    cases parseDuration option (Text.trim raw) with
    | error e => rfl
    | ok d =>
      dsimp only
      by_cases hzero : d.isZero = true
      · rw [if_pos hzero, if_pos hzero]
      · rw [if_neg hzero, if_neg hzero]
        cases P.checkedDeadline d with
        | error err => rfl
        | ok deadline => rfl

theorem spells_of_splitUnit {raw : String} {n : ℕ}
    (h : Text.parseUnsigned (2 ^ 64) (splitUnit raw).1 = some n) :
    Spells raw n (splitUnit raw).2 := by
  revert h
  rw [splitUnit]
  cases hms : Text.stripSuffix raw "ms" with
  | some number =>
    exact fun h => ⟨number, "ms", List.mem_cons_self, Text.stripSuffix_eq_some.mp hms, h⟩
  | none =>
    cases hs : Text.stripSuffix raw "s" with
    | some number =>
      exact fun h => ⟨number, "s", List.mem_cons_self, Text.stripSuffix_eq_some.mp hs, h⟩
    | none =>
      cases hm : Text.stripSuffix raw "m" with
      | some number =>
        exact fun h => ⟨number, "m", List.mem_cons_self, Text.stripSuffix_eq_some.mp hm, h⟩
      | none =>
        refine fun h => ⟨raw, "", ?_, String.append_empty.symm, h⟩
        exact List.mem_cons_of_mem _ List.mem_cons_self

/-- A text that ends in another character does not have the suffix. -/
theorem stripSuffix_eq_none {s suffix : String} {c d : Char} (hs : s.toList.getLast? = some c)
    (hsuffix : suffix.toList.getLast? = some d) (h : c ≠ d) :
    Text.stripSuffix s suffix = none := by
  cases hstrip : Text.stripSuffix s suffix with
  | none => rfl
  | some rest =>
    have hlast := congrArg (fun t => t.toList.getLast?) (Text.stripSuffix_eq_some.mp hstrip)
    simp only [String.toList_append] at hlast
    rw [List.getLast?_append, hs, hsuffix] at hlast
    exact absurd (Option.some.inj hlast) h

theorem Spells.ne_empty {raw : String} {n : ℕ} {unit : DurationUnit} (h : Spells raw n unit) :
    raw ≠ "" := by
  obtain ⟨number, suffix, -, rfl, hnumber⟩ := h
  obtain ⟨c, hc, -⟩ := Text.getLast?_of_parseUnsigned hnumber
  intro hempty
  have hnil := congrArg String.toList hempty
  rw [String.toList_append] at hnil
  rw [(List.append_eq_nil_iff.mp hnil).1] at hc
  cases hc

/-- The suffixes overlap, but a number ends in a digit. -/
theorem splitUnit_of_spells {raw : String} {n : ℕ} {unit : DurationUnit}
    (h : Spells raw n unit) :
    Text.parseUnsigned (2 ^ 64) (splitUnit raw).1 = some n ∧ (splitUnit raw).2 = unit := by
  obtain ⟨number, suffix, hsuffix, rfl, hnumber⟩ := h
  obtain ⟨c, hc, hdigit⟩ := Text.getLast?_of_parseUnsigned hnumber
  have hne : ∀ d : Char, d.isDigit = false → c ≠ d := by
    rintro d hd rfl
    rw [hd] at hdigit
    cases hdigit
  cases unit with
  | milliseconds =>
    obtain rfl : suffix = "ms" := List.mem_singleton.mp hsuffix
    rw [splitUnit, Text.stripSuffix_append]
    exact ⟨hnumber, rfl⟩
  | seconds =>
    rcases List.mem_cons.mp hsuffix with rfl | hsuffix
    · have hms : Text.stripSuffix (number ++ "s") "ms" = none := by
        cases hstrip : Text.stripSuffix (number ++ "s") "ms" with
        | none => rfl
        | some rest =>
          have htext := congrArg String.toList (Text.stripSuffix_eq_some.mp hstrip)
          have hfront : number.toList ++ ['s'] = (rest.toList ++ ['m']) ++ ['s'] := by
            simpa using htext
          have hnumber' := List.append_cancel_right hfront
          rw [hnumber', List.getLast?_concat] at hc
          exact absurd (Option.some.inj hc).symm (hne 'm' rfl)
      rw [splitUnit, hms, Text.stripSuffix_append]
      exact ⟨hnumber, rfl⟩
    · obtain rfl : suffix = "" := List.mem_singleton.mp hsuffix
      rw [String.append_empty, splitUnit, stripSuffix_eq_none hc rfl (hne 's' rfl),
        stripSuffix_eq_none hc rfl (hne 's' rfl), stripSuffix_eq_none hc rfl (hne 'm' rfl)]
      exact ⟨hnumber, rfl⟩
  | minutes =>
    obtain rfl : suffix = "m" := List.mem_singleton.mp hsuffix
    have hlast : (number ++ "m").toList.getLast? = some 'm' := by
      rw [String.toList_append]
      exact List.getLast?_concat
    rw [splitUnit, stripSuffix_eq_none hlast rfl (by decide),
      stripSuffix_eq_none hlast rfl (by decide), Text.stripSuffix_append]
    exact ⟨hnumber, rfl⟩

theorem durationOf_eq_ok {option raw number : String} {unit : DurationUnit} {d : Duration} :
    durationOf option raw number unit = .ok d ↔
      ∃ n, Text.parseUnsigned (2 ^ 64) number = some n ∧ Fits n unit ∧
        d.asNanos = n * unit.asNanos := by
  rw [durationOf]
  cases hnumber : parseDurationNumber option raw number with
  | error e =>
    constructor
    · intro h
      cases h
    · rintro ⟨n, hn, -⟩
      rw [parseDurationNumber_eq_ok.mpr hn] at hnumber
      cases hnumber
  | ok n =>
    have hn := parseDurationNumber_eq_ok.mp hnumber
    have hlt := Text.parseUnsigned_lt hn
    have hfits : durationFromNumber n unit = some d ↔ Fits n unit ∧ d.asNanos = n * unit.asNanos :=
      durationFromNumber_eq_some hlt
    constructor
    · intro h
      refine ⟨n, hn, hfits.mp ?_⟩
      cases hd : durationFromNumber n unit with
      | none =>
        simp only [hd] at h
        cases h
      | some d' =>
        simp only [hd, Except.ok.injEq] at h
        rw [h]
    · rintro ⟨m, hm, hd⟩
      obtain rfl : n = m := Option.some.inj (hn.symm.trans hm)
      simp only [hfits.mpr hd]

theorem parseDuration_eq_ok {option raw : String} {d : Duration} :
    parseDuration option raw = .ok d ↔
      ∃ n unit, Spells raw n unit ∧ Fits n unit ∧ d.asNanos = n * unit.asNanos := by
  rw [parseDuration_eq, durationOf_eq_ok]
  constructor
  · rintro ⟨n, hn, hd⟩
    exact ⟨n, _, spells_of_splitUnit hn, hd⟩
  · rintro ⟨n, unit, hspells, hd⟩
    obtain ⟨hn, rfl⟩ := splitUnit_of_spells hspells
    exact ⟨n, hn, hd⟩

theorem parseDurationOption_eq_ok {option raw : String} {d : Duration} :
    parseDurationOption P option raw = .ok d ↔
      (∃ n unit, Spells (Text.trim raw) n unit ∧ Fits n unit ∧ d.asNanos = n * unit.asNanos) ∧
        0 < d.asNanos ∧ ∃ deadline, P.checkedDeadline d = .ok deadline := by
  have hzero : d.isZero = true ↔ d.asNanos = 0 := Duration.isZero_iff_asNanos d
  have hparsed : parseDuration option (Text.trim raw) = .ok d ↔ _ := parseDuration_eq_ok
  rw [parseDurationOption]
  by_cases hraw : Text.trim raw = ""
  · rw [if_pos hraw, hraw]
    constructor
    · intro h
      cases h
    · rintro ⟨⟨n, unit, hspells, -⟩, -⟩
      exact absurd rfl hspells.ne_empty
  · rw [if_neg hraw, ← hparsed]
    cases parseDuration option (Text.trim raw) with
    | error e =>
      constructor
      · intro h
        cases h
      · rintro ⟨h, -⟩
        cases h
    | ok duration =>
      simp only [Except.ok.injEq]
      constructor
      · intro h
        by_cases hd : duration.isZero = true
        · rw [if_pos hd] at h
          cases h
        · rw [if_neg hd] at h
          cases hdeadline : P.checkedDeadline duration with
          | error err =>
            rw [hdeadline] at h
            cases h
          | ok deadline =>
            rw [hdeadline] at h
            obtain rfl : duration = d := Except.ok.inj h
            exact ⟨rfl, Nat.pos_of_ne_zero (mt hzero.mpr hd), deadline, hdeadline⟩
      · rintro ⟨rfl, hpos, deadline, hdeadline⟩
        have hd : ¬duration.isZero = true := fun h => by
          have hnanos := hzero.mp h
          omega
        rw [if_neg hd, hdeadline]

/-- A platform on which the clock reads `now`. -/
def clocked (limit now : Instant) : Platform Url :=
  { P with checkedDeadline := checkedDeadline limit now }

theorem checkedDeadline_eq_ok {limit now : Instant} {d : Duration} :
    (∃ deadline, checkedDeadline limit now d = .ok deadline) ↔ now + d.asNanos ≤ limit := by
  rw [checkedDeadline, Instant.checkedAdd]
  by_cases h : now + d.asNanos ≤ limit
  · rw [if_pos h]
    exact ⟨fun _ => h, fun _ => ⟨_, rfl⟩⟩
  · rw [if_neg h]
    constructor
    · rintro ⟨deadline, hd⟩
      cases hd
    · exact fun hle => absurd hle h

theorem trim_rendered (n : ℕ) {unit : DurationUnit} {suffix : String}
    (h : suffix ∈ unit.suffixes) : Text.trim (toString n ++ suffix) = toString n ++ suffix := by
  have hall : (suffix.toList.all fun c => !Text.isWhitespace c) = true := by
    cases unit with
    | milliseconds =>
      obtain rfl := List.mem_singleton.mp h
      rfl
    | seconds =>
      rcases List.mem_pair.mp h with rfl | rfl
      · rfl
      · rfl
    | minutes =>
      obtain rfl := List.mem_singleton.mp h
      rfl
  have hsuffix : ∀ c ∈ suffix.toList, Text.isWhitespace c = false := fun c hc =>
    Bool.not_eq_true' _ ▸ List.all_eq_true.mp hall c hc
  apply Text.trim_eq_self
  intro c hc
  rw [String.toList_append] at hc
  rcases List.mem_append.mp hc with hc | hc
  · exact Text.isWhitespace_of_isDigit (Text.isDigit_toString n c hc)
  · exact hsuffix c hc

/-- A duration that fits the clock is read back from its text in any unit it is a multiple of. -/
theorem parseDurationOption_rendered {option suffix : String} {n : ℕ} {unit : DurationUnit}
    {d : Duration} {deadline : Instant} (hsuffix : suffix ∈ unit.suffixes) (hn : n < 2 ^ 64)
    (hd : n * unit.asNanos = d.asNanos) (hpos : 0 < d.asNanos)
    (hdeadline : P.checkedDeadline d = .ok deadline) :
    parseDurationOption P option (toString n ++ suffix) = .ok d := by
  have hfits : Fits n unit := by
    cases unit with
    | milliseconds => trivial
    | seconds => trivial
    | minutes =>
      have hsecs := d.secs_lt
      have hnanos := d.nanos_lt
      simp only [DurationUnit.asNanos, Duration.asNanos] at hd
      simp only [Fits]
      omega
  refine (parseDurationOption_eq_ok P).mpr ⟨⟨n, unit, ?_, hfits, hd.symm⟩, hpos, deadline,
    hdeadline⟩
  rw [trim_rendered n hsuffix]
  exact ⟨toString n, suffix, hsuffix, rfl, Text.parseUnsigned_toString hn⟩

theorem duration_option_accepts (limit now : Instant) (option raw : String) :
    ∃ result, parseDurationOptionCall (clocked P limit now) option raw = .returned result ∧
      (∀ d, result = .ok d ↔
        (∃ n unit, Spells (Text.trim raw) n unit ∧ Fits n unit ∧
          d.asNanos = n * unit.asNanos) ∧ 0 < d.asNanos ∧ now + d.asNanos ≤ limit) ∧
      ∀ d, result = .ok d → ∀ option' n (unit : DurationUnit) suffix, suffix ∈ unit.suffixes →
        n < 2 ^ 64 → n * unit.asNanos = d.asNanos →
        parseDurationOptionCall (clocked P limit now) option' (toString n ++ suffix) =
          .returned (.ok d) := by
  have haccepts : ∀ d, parseDurationOption (clocked P limit now) option raw = .ok d ↔ _ :=
    fun d => parseDurationOption_eq_ok (clocked P limit now)
  refine ⟨_, parseDurationOptionCall_eq _ option raw, fun d => ?_, ?_⟩
  · rw [haccepts d, ← checkedDeadline_eq_ok]
    rfl
  · intro d hd option' n unit suffix hsuffix hn hnanos
    obtain ⟨-, hpos, deadline, hdeadline⟩ := (haccepts d).mp hd
    rw [parseDurationOptionCall_eq,
      parseDurationOption_rendered (clocked P limit now) hsuffix hn hnanos hpos hdeadline]

end Args

end Iperf3Rs
