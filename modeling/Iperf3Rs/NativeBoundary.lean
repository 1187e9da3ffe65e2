import Iperf3Rs.OutputSink

/-! `iperf3rs_arg_boundary`, which classifies one upstream word by calls of `getopt_long` at that
word and the next. What the option parser assumes of it holds of it. -/

namespace Iperf3Rs

namespace Getopt

/-- What `*info` is set to at a flag that ends the loop. -/
def flagInfo (flag : ℕ) : Option ℤ :=
  if flag = '?'.toNat ∨ flag = ':'.toNat then some (-1)
  else if flag = 'h'.toNat ∨ flag = 'v'.toNat then some (if flag = 'h'.toNat then 1 else 2)
  else none

/-- The loop over the calls. Between two flags of a word `optind` is 1, and it is behind the words
that have been taken after the last. -/
def boundaryLoop (reading : Reading) : List Flag → ℕ × ℤ
  | [] => (1, if reading.unknown then -1 else 0)
  | (flag, _) :: flags =>
    let optind := if flags = [] ∧ reading.unknown = false then 1 + reading.span else 1
    let consumed := if 2 < optind then 2 else 1
    match flagInfo flag with
    | some info => (consumed, info)
    | none => if 2 ≤ optind then (consumed, 0) else boundaryLoop reading flags

/-- The words have no NUL. At `--` the first call returns -1. -/
def iperf3rsArgBoundary (table : Table) (word : String) (next : Option String) : ℕ × ℤ :=
  match word.toList with
  | '-' :: _ :: _ =>
    if word = "--" then (1, 0)
    else boundaryLoop (read table word next) (read table word next).flags
  | _ => (1, 0)

section Operands

variable (table : Table)

/-- A word is read in one way, or its last option takes whatever word is next. -/
inductive TakesOperand (reading : Option String → Reading) : Prop
  | own (r : Reading) (hspan : r.span = 1) (h : ∀ next, reading next = r)
  | next (flags : List Flag) (val : ℕ)
      (hsome : ∀ operand, reading (some operand) = ⟨flags ++ [(val, some operand)], false, 2⟩)
      (hnone : reading none = ⟨flags, true, 1⟩)

theorem takesOperand_readLong (text : String) :
    TakesOperand fun next => readLong table text next := by
  simp only [readLong]
  cases hresolve : resolve table (splitInline text).1 with
  | none => exact .own unknownOption rfl fun next => rfl
  | some o =>
    cases ho : o.hasArg <;> cases (splitInline text).2
    · exact .own ⟨[(o.val, none)], false, 1⟩ rfl fun next => by simp [ho]
    · exact .own unknownOption rfl fun next => by simp [ho]
    · exact .next [] o.val (fun operand => by simp [ho]) (by simp [ho, unknownOption])
    · next value => exact .own ⟨[(o.val, some value)], false, 1⟩ rfl fun next => by simp [ho]
    · exact .own ⟨[(o.val, none)], false, 1⟩ rfl fun next => by simp [ho]
    · next value => exact .own ⟨[(o.val, some value)], false, 1⟩ rfl fun next => by simp [ho]

theorem takesOperand_readShort (letters : List Char) :
    TakesOperand fun next => readShort table next letters := by
  induction letters with
  | nil => exact .own ⟨[], false, 1⟩ rfl fun next => rfl
  | cons c rest ih =>
    cases hc : table.short c with
    | none => exact .own unknownOption rfl fun next => by simp only [readShort, hc]
    | some arg =>
      cases arg with
      | no =>
        cases ih with
        | own r hspan h =>
          refine .own { r with flags := (c.toNat, none) :: r.flags } hspan fun next => ?_
          simp only [readShort, hc, h next]
        | next flags val hsome hnone =>
          refine .next ((c.toNat, none) :: flags) val (fun operand => ?_) ?_
          · simp only [readShort, hc, hsome operand, List.cons_append]
          · simp only [readShort, hc, hnone]
      | optional =>
        exact .own ⟨[(c.toNat, if rest = [] then none else some (.ofList rest))], false, 1⟩ rfl
          fun next => by simp only [readShort, hc]
      | required =>
        by_cases hrest : rest = []
        · exact .next [] c.toNat (fun operand => by simp [readShort, hc, hrest])
            (by simp [readShort, hc, hrest, unknownOption])
        · exact .own ⟨[(c.toNat, some (.ofList rest))], false, 1⟩ rfl
            fun next => by simp only [readShort, hc, if_neg hrest]

theorem takesOperand_read (word : String) : TakesOperand fun next => read table word next := by
  simp only [read]
  split
  · exact takesOperand_readLong table _
  · exact takesOperand_readShort table _
  · exact .own ⟨[], false, 1⟩ rfl fun next => rfl

end Operands

section Boundary

variable {table : Table} {word : String}

/-- What the first of the flags that end the loop sets. -/
def firstInfo (flags : List Flag) : Option ℤ := flags.findSome? fun flag => flagInfo flag.1

theorem boundaryLoop_unknown {reading : Reading} (h : reading.unknown = true)
    (flags : List Flag) : boundaryLoop reading flags = (1, (firstInfo flags).getD (-1)) := by
  induction flags with
  | nil => simp [boundaryLoop, h, firstInfo]
  | cons flag flags ih =>
    simp only [boundaryLoop, h, Bool.true_eq_false, and_false, if_false, firstInfo,
      List.findSome?_cons]
    cases flagInfo flag.1 with
    | some info => simp
    | none => simpa [firstInfo] using ih

theorem boundaryLoop_concat {reading : Reading} (h : reading.unknown = false)
    (hspan : 1 ≤ reading.span) (flags : List Flag) (last : Flag) :
    boundaryLoop reading (flags ++ [last]) =
      match firstInfo flags with
      | some info => (1, info)
      | none => (if 2 ≤ reading.span then 2 else 1, (flagInfo last.1).getD 0) := by
  induction flags with
  | nil =>
    have hlast : 2 ≤ 1 + reading.span := by omega
    have hwidth : 2 < 1 + reading.span ↔ 2 ≤ reading.span := by omega
    simp only [List.nil_append, boundaryLoop, h, and_self, if_true, firstInfo, List.findSome?_nil,
      hlast, hwidth]
    cases flagInfo last.1 <;> rfl
  | cons flag flags ih =>
    have hmore : ¬ flags ++ [last] = [] := by simp
    simp only [List.cons_append, boundaryLoop, hmore, false_and, if_false, firstInfo,
      List.findSome?_cons]
    cases flagInfo flag.1 with
    | some info => simp
    | none => simpa [firstInfo] using ih

theorem flagInfo_bound {flag : ℕ} {info : ℤ} (h : flagInfo flag = some info) :
    info ≤ 2 ∧ info ≠ 0 := by
  rw [flagInfo] at h
  split_ifs at h <;> cases h <;> omega

theorem firstInfo_bound {flags : List Flag} {info : ℤ} (h : firstInfo flags = some info) :
    info ≤ 2 ∧ info ≠ 0 := by
  obtain ⟨flag, -, hflag⟩ := List.exists_of_findSome?_eq_some h
  exact flagInfo_bound hflag

theorem boundaryLoop_info_le (reading : Reading) (flags : List Flag) :
    (boundaryLoop reading flags).2 ≤ 2 := by
  induction flags with
  | nil =>
    simp only [boundaryLoop]
    split <;> omega
  | cons flag flags ih =>
    simp only [boundaryLoop]
    split
    · next info hinfo => exact (flagInfo_bound hinfo).1
    · have hzero : ∀ consumed : ℕ, ((consumed, 0) : ℕ × ℤ).2 ≤ 2 := fun _ => by simp
      split_ifs <;> first | exact hzero _ | exact ih

/-- A word that has taken no operand could not have taken one. -/
theorem boundaryLoop_takesOperand {reading : Option String → Reading}
    (h : TakesOperand reading) (next : Option String) :
    let classify next := boundaryLoop (reading next) (reading next).flags
    ((classify next).1 = 1 ∧ (next.isSome = true → ∀ other, classify other = classify next)) ∨
      ((classify next).1 = 2 ∧ next.isSome = true) := by
  simp only
  cases h with
  | own r hspan h =>
    refine .inl ⟨?_, fun _ other => by rw [h, h]⟩
    rw [h]
    by_cases hunknown : r.unknown = true
    · rw [boundaryLoop_unknown hunknown]
    · rw [Bool.not_eq_true] at hunknown
      rcases List.eq_nil_or_concat r.flags with hflags | ⟨flags, last, hflags⟩
      · rw [hflags]
        rfl
      · rw [hflags, List.concat_eq_append, boundaryLoop_concat hunknown (by omega), hspan]
        cases firstInfo flags <;> rfl
  | next flags val hsome hnone =>
    cases next with
    | none => exact .inl ⟨by rw [hnone, boundaryLoop_unknown rfl], fun hnext => by cases hnext⟩
    | some operand =>
      have hread : ∀ operand, boundaryLoop (reading (some operand)) (reading (some operand)).flags =
          match firstInfo flags with
          | some info => (1, info)
          | none => (2, (flagInfo val).getD 0) := by
        intro operand
        have hlast := @boundaryLoop_concat ⟨flags ++ [(val, some operand)], false, 2⟩ rfl
          (Nat.le_succ 1) flags (val, some operand)
        rw [hsome operand]
        exact hlast
      rw [hread operand]
      cases hfirst : firstInfo flags with
      | none => exact .inr ⟨rfl, rfl⟩
      | some info =>
        refine .inl ⟨rfl, fun _ other => ?_⟩
        cases other with
        | none => rw [hnone, boundaryLoop_unknown rfl, hfirst]; rfl
        | some other => rw [hread other, hfirst]

end Boundary

/-- Every word is classified like an option, if by its reading: that of a word that is none has no
flags. -/
theorem iperf3rsArgBoundary_eq (table : Table) {word : String} (hdash : word ≠ "--")
    (next : Option String) : iperf3rsArgBoundary table word next =
      boundaryLoop (read table word next) (read table word next).flags := by
  rw [iperf3rsArgBoundary]
  split
  · rw [if_neg hdash]
  · next hword =>
    have hread : read table word next = ⟨[], false, 1⟩ := by
      rw [read]
      split
      · next text heq => exact absurd heq (hword '-' text)
      · next c rest _ heq => exact absurd heq (hword c rest)
      · rfl
    rw [hread]
    rfl

theorem iperf3rsArgBoundary_cases (table : Table) (word : String) (next : Option String) :
    ((iperf3rsArgBoundary table word next).1 = 1 ∧ (next.isSome = true →
      ∀ other, iperf3rsArgBoundary table word other = iperf3rsArgBoundary table word next)) ∨
      ((iperf3rsArgBoundary table word next).1 = 2 ∧ next.isSome = true) := by
  by_cases hdash : word = "--"
  · subst hdash
    exact .inl ⟨rfl, fun _ _ => rfl⟩
  · simp only [iperf3rsArgBoundary_eq table hdash]
    exact boundaryLoop_takesOperand (takesOperand_read table word) next

/-- The shim of this table of options, as the option parser calls it. -/
def Table.argBoundary (table : Table) : NativeBoundary where
  classify := iperf3rsArgBoundary table
  span word next := by
    rcases iperf3rsArgBoundary_cases table word next with ⟨h, -⟩ | h
    · exact .inl h
    · exact .inr h
  info word next := by
    by_cases hdash : word = "--"
    · subst hdash
      exact (by decide : (0 : ℤ) ≤ 2)
    · rw [iperf3rsArgBoundary_eq table hdash]
      exact boundaryLoop_info_le _ _
  alone word next h other := by
    rcases iperf3rsArgBoundary_cases table word (some next) with ⟨-, hsame⟩ | ⟨htwo, -⟩
    · exact hsame rfl other
    · omega

section Passed

theorem firstInfo_concat (flags : List Flag) (last : Flag) :
    firstInfo (flags ++ [last]) = (firstInfo flags).or (flagInfo last.1) := by
  simp [firstInfo, List.findSome?_append]

theorem plain_of_boundaryLoop {reading : Reading} {span : ℕ}
    (hspan : 1 ≤ reading.span) (h : boundaryLoop reading reading.flags = (span, 0)) :
    reading.unknown = false ∧ firstInfo reading.flags = none := by
  by_cases hunknown : reading.unknown = true
  · rw [boundaryLoop_unknown hunknown] at h
    cases hfirst : firstInfo reading.flags with
    | none => simp [hfirst] at h
    | some info =>
      have hinfo := (firstInfo_bound hfirst).2
      simp [hfirst] at h
      omega
  · rw [Bool.not_eq_true] at hunknown
    refine ⟨hunknown, ?_⟩
    rcases List.eq_nil_or_concat reading.flags with hflags | ⟨flags, last, hflags⟩
    · rw [hflags]
      rfl
    · rw [List.concat_eq_append] at hflags
      rw [hflags, boundaryLoop_concat hunknown hspan] at h
      rw [hflags, firstInfo_concat]
      cases hfirst : firstInfo flags with
      | some info =>
        have hinfo := (firstInfo_bound hfirst).2
        simp [hfirst] at h
        omega
      | none =>
        cases hlast : flagInfo last.1 with
        | none => rfl
        | some info =>
          have hinfo := (flagInfo_bound hlast).2
          simp [hfirst, hlast] at h
          omega

/-- An option that the boundaries pass over is read whole, and takes as many words as they say. -/
structure Passed (reading : Option String → Reading) (next : Option String) (span : ℕ) : Prop where
  known : (reading next).unknown = false
  span_eq : (reading next).span = span
  plain : firstInfo (reading next).flags = none
  alone : span = 1 → ∀ other, reading other = reading next

theorem boundaryLoop_plain {reading : Reading} (hunknown : reading.unknown = false)
    (hfirst : firstInfo reading.flags = none) (hspan : reading.span = 1 ∨
      reading.span = 2 ∧ reading.flags ≠ []) :
    boundaryLoop reading reading.flags = (reading.span, 0) := by
  rcases List.eq_nil_or_concat reading.flags with hflags | ⟨flags, last, hflags⟩
  · rcases hspan with hone | ⟨-, hne⟩
    · rw [hflags, hone, boundaryLoop, hunknown]
      rfl
    · exact absurd hflags hne
  · rw [List.concat_eq_append] at hflags
    rw [hflags, firstInfo_concat, Option.or_eq_none_iff] at hfirst
    rw [hflags, boundaryLoop_concat hunknown (by omega), hfirst.1, hfirst.2]
    rcases hspan with hone | ⟨htwo, -⟩
    · rw [hone]
      rfl
    · rw [htwo]
      rfl

theorem passed_of_takesOperand {reading : Option String → Reading} {next : Option String}
    {span : ℕ} (hreading : TakesOperand reading)
    (h : boundaryLoop (reading next) (reading next).flags = (span, 0)) :
    Passed reading next span := by
  cases hreading with
  | own r hspan hown =>
    have hplain := plain_of_boundaryLoop (by rw [hown, hspan]) h
    rw [boundaryLoop_plain hplain.1 hplain.2 (.inl (by rw [hown, hspan]))] at h
    exact ⟨hplain.1, congrArg Prod.fst h, hplain.2, fun _ other => by rw [hown, hown]⟩
  | next flags val hsome hnone =>
    cases next with
    | none =>
      have hplain := plain_of_boundaryLoop (by rw [hnone]) h
      rw [hnone] at hplain
      cases hplain.1
    | some operand =>
      have hplain := plain_of_boundaryLoop (by rw [hsome]; exact Nat.le_succ 1) h
      rw [boundaryLoop_plain hplain.1 hplain.2 (.inr (by rw [hsome]; simp))] at h
      refine ⟨hplain.1, congrArg Prod.fst h, hplain.2, fun hone => ?_⟩
      have htwo : 2 = span := by simpa [hsome] using congrArg Prod.fst h
      omega

end Passed

section Information

/-- The flags before the one that asks for information. -/
def plainFront (flags : List Flag) : List Flag :=
  flags.takeWhile fun flag => flagInfo flag.1 = none

theorem plainFront_append {flags : List Flag} {info : ℤ} (h : firstInfo flags = some info)
    (more : List Flag) : plainFront (flags ++ more) = plainFront flags := by
  induction flags with
  | nil => cases h
  | cons flag flags ih =>
    rw [firstInfo, List.findSome?_cons] at h
    simp only [plainFront, List.cons_append, List.takeWhile_cons]
    cases hflag : flagInfo flag.1 with
    | some i => simp
    | none =>
      rw [hflag] at h
      simpa [plainFront] using ih h

theorem plainFront_plain {flags : List Flag} (h : firstInfo flags = none) (more : List Flag) :
    plainFront (flags ++ more) = flags ++ plainFront more := by
  rw [firstInfo, List.findSome?_eq_none_iff] at h
  exact List.takeWhile_append_of_pos fun flag hmem => decide_eq_true (h flag hmem)

theorem firstInfo_of_boundaryLoop {reading : Reading} {span : ℕ} {info : ℤ}
    (hspan : 1 ≤ reading.span) (h : boundaryLoop reading reading.flags = (span, info))
    (hpos : 0 < info) : firstInfo reading.flags = some info := by
  by_cases hunknown : reading.unknown = true
  · rw [boundaryLoop_unknown hunknown] at h
    cases hfirst : firstInfo reading.flags with
    | none =>
      simp only [hfirst, Option.getD_none, Prod.mk.injEq] at h
      omega
    | some i =>
      simp only [hfirst, Option.getD_some, Prod.mk.injEq] at h
      rw [h.2]
  · rw [Bool.not_eq_true] at hunknown
    rcases List.eq_nil_or_concat reading.flags with hnil | ⟨flags, last, hlast⟩
    · rw [hnil, boundaryLoop, hunknown] at h
      simp at h
      omega
    · rw [List.concat_eq_append] at hlast
      rw [hlast, boundaryLoop_concat hunknown hspan] at h
      rw [hlast, firstInfo_concat]
      cases hfirst : firstInfo flags with
      | some i =>
        simp only [hfirst, Prod.mk.injEq] at h
        rw [h.2]
        rfl
      | none =>
        cases hinfo : flagInfo last.1 with
        | none =>
          simp only [hfirst, hinfo, Option.getD_none, Prod.mk.injEq] at h
          omega
        | some i =>
          simp only [hfirst, hinfo, Option.getD_some, Prod.mk.injEq] at h
          rw [h.2]
          rfl

/-- The word is classified by the flags up to the one that asks for information, which are the
same with the operand and without. -/
theorem plainFront_of_takesOperand {reading : Option String → Reading} {rest : List String}
    {span : ℕ} {info : ℤ} (hreading : TakesOperand reading)
    (h : boundaryLoop (reading rest.head?) (reading rest.head?).flags = (span, info)) :
    plainFront (reading (rest.take (span - 1)).head?).flags =
      plainFront (reading rest.head?).flags := by
  cases hreading with
  | own r hspan hown => rw [hown, hown]
  | next flags val hsome hnone =>
    cases rest with
    | nil => rw [List.take_nil]
    | cons operand rest =>
      rw [List.head?_cons, hsome, @boundaryLoop_concat ⟨_, false, 2⟩ rfl (Nat.le_succ 1)] at h
      cases hfirst : firstInfo flags with
      | some i =>
        simp only [hfirst, Prod.mk.injEq] at h
        obtain rfl := h.1
        rw [List.head?_cons, hsome, plainFront_append hfirst, Nat.sub_self, List.take_zero,
          List.head?_nil, hnone]
      | none =>
        simp only [hfirst, Nat.le_refl, if_true, Prod.mk.injEq] at h
        obtain rfl := h.1
        rfl

end Information

/-- `?` and `:` are no options, so that they always tell of an error. -/
structure Table.Regular (table : Table) : Prop where
  letters : table.short '?' = none ∧ table.short ':' = none
  vals : ∀ o ∈ table.long, o.val ≠ '?'.toNat ∧ o.val ≠ ':'.toNat

section Regular

variable {table : Table}

theorem mem_readLong_val {text : String} {next : Option String} {flag : Flag}
    (h : flag ∈ (readLong table text next).flags) : ∃ o ∈ table.long, flag.1 = o.val := by
  rw [readLong] at h
  cases hresolve : resolve table (splitInline text).1 with
  | none =>
    simp only [hresolve] at h
    cases h
  | some o =>
    refine ⟨o, resolve_mem hresolve, ?_⟩
    simp only [hresolve] at h
    split at h <;> first | exact congrArg Prod.fst (List.mem_singleton.mp h) | cases h

theorem Table.Regular.read (hregular : table.Regular) {word : String} {next : Option String}
    {flag : Flag} (h : flag ∈ (Getopt.read table word next).flags) :
    flag.1 ≠ '?'.toNat ∧ flag.1 ≠ ':'.toNat := by
  rw [Getopt.read] at h
  split at h
  · obtain ⟨o, ho, hval⟩ := mem_readLong_val h
    rw [hval]
    exact hregular.vals o ho
  · obtain ⟨c, hc, hval⟩ := mem_readShort h
    rw [hval]
    constructor
    · intro heq
      exact hc (Char.toNat_inj.mp heq ▸ hregular.letters.1)
    · intro heq
      exact hc (Char.toNat_inj.mp heq ▸ hregular.letters.2)
  · cases h

theorem flagInfo_pos {flag : ℕ} {info : ℤ} (hflag : flag ≠ '?'.toNat ∧ flag ≠ ':'.toNat)
    (h : flagInfo flag = some info) : 0 < info := by
  rw [flagInfo, if_neg (by tauto)] at h
  split_ifs at h <;> cases h <;> omega

theorem firstInfo_pos {flags : List Flag} {info : ℤ}
    (hflags : ∀ flag ∈ flags, flag.1 ≠ '?'.toNat ∧ flag.1 ≠ ':'.toNat)
    (h : firstInfo flags = some info) : 0 < info := by
  obtain ⟨flag, hmem, hflag⟩ := List.exists_of_findSome?_eq_some h
  exact flagInfo_pos (hflags flag hmem) hflag

/-- A word that is classified as unknown is one that the parser stops at. -/
theorem unknown_of_boundaryLoop {reading : Reading} {span : ℕ} {info : ℤ}
    (hflags : ∀ flag ∈ reading.flags, flag.1 ≠ '?'.toNat ∧ flag.1 ≠ ':'.toNat)
    (hspan : 1 ≤ reading.span) (h : boundaryLoop reading reading.flags = (span, info))
    (hneg : info < 0) : reading.unknown = true ∧ firstInfo reading.flags = none := by
  by_cases hunknown : reading.unknown = true
  · refine ⟨hunknown, ?_⟩
    rw [boundaryLoop_unknown hunknown] at h
    cases hfirst : firstInfo reading.flags with
    | none => rfl
    | some i =>
      have hpos := firstInfo_pos hflags hfirst
      simp only [hfirst, Option.getD_some, Prod.mk.injEq] at h
      omega
  · exfalso
    rw [Bool.not_eq_true] at hunknown
    rcases List.eq_nil_or_concat reading.flags with hnil | ⟨flags, last, hlast⟩
    · rw [hnil, boundaryLoop, hunknown] at h
      simp at h
      omega
    · rw [List.concat_eq_append] at hlast
      rw [hlast, boundaryLoop_concat hunknown hspan] at h
      have hfront : ∀ flag ∈ flags, flag.1 ≠ '?'.toNat ∧ flag.1 ≠ ':'.toNat := fun flag hmem =>
        hflags flag (hlast ▸ List.mem_append_left _ hmem)
      cases hfirst : firstInfo flags with
      | some i =>
        have hpos := firstInfo_pos hfront hfirst
        simp only [hfirst, Prod.mk.injEq] at h
        omega
      | none =>
        cases hinfo : flagInfo last.1 with
        | none =>
          simp only [hfirst, hinfo, Option.getD_none, Prod.mk.injEq] at h
          omega
        | some i =>
          have hmem : last ∈ reading.flags := hlast ▸ List.mem_append_right _ List.mem_cons_self
          have hpos := flagInfo_pos (hflags last hmem) hinfo
          simp only [hfirst, hinfo, Option.getD_some, Prod.mk.injEq] at h
          omega

theorem one_le_span_of_takesOperand {reading : Option String → Reading}
    (h : TakesOperand reading) (next : Option String) : 1 ≤ (reading next).span := by
  cases h with
  | own r hspan hown => rw [hown, hspan]
  | next flags val hsome hnone =>
    cases next with
    | none => rw [hnone]
    | some operand =>
      rw [hsome]
      exact Nat.le_succ 1

end Regular

end Getopt

end Iperf3Rs
