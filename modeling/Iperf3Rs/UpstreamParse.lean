import Iperf3Rs.ArgForwarding
import Iperf3Rs.NativeBoundary

/-! libiperf's own parse of the words forwarded to it. It finds the options of the upstream
segments, each as if the segment were a command line by itself, and the tail. -/

namespace Iperf3Rs

namespace Getopt

section Handle

variable {R : Type} {table : Table} {body : List Flag → Flag → Option R}

theorem handle_append (history flags more : List Flag) :
    handle body history (flags ++ more) =
      match handle body history flags with
      | (history, some result) => (history, some result)
      | (history, none) => handle body history more := by
  induction flags generalizing history with
  | nil => rfl
  | cons flag flags ih =>
    simp only [List.cons_append, handle]
    cases hbody : body history flag with
    | some result => rfl
    | none => exact ih _

theorem loop_operands (operands rest : List String) (history : List Flag) :
    loop table body (operands ++ rest) operands.length history =
      loop table body rest 0 history := by
  induction operands with
  | nil => rfl
  | cons operand operands ih =>
    simp only [List.cons_append, List.length_cons, loop]
    exact ih

end Handle

end Getopt

open Getopt (Flag Table flagInfo firstInfo)

/-- What an upstream segment says by itself. -/
def Segment.flags (table : Table) : Segment → List Flag
  | .upstream (word :: operands) => (Getopt.read table word operands.head?).flags
  | _ => []

section Forwarded

variable {R : Type} {table : Table} {body : List Flag → Flag → Option R}

theorem classify_of_argBoundary {B : NativeBoundary} {word : String} {next : Option String}
    {result : ℕ × ℤ} (h : Args.argBoundary B word next = .ok result) :
    Args.hasNul word = false ∧ B.classify word next = result := by
  rw [Args.argBoundary] at h
  split at h
  · cases h
  · next hnul =>
    rw [Bool.not_eq_true, Bool.or_eq_false_iff] at hnul
    cases h
    exact ⟨hnul.1, rfl⟩

/-- The option is read from its own words, whatever stands behind them. -/
theorem passed_upstream {word : String} {rest : List String} {span : ℕ} (hdash : word ≠ "--")
    (hb : Args.argBoundary table.argBoundary word rest.head? = .ok (span, 0))
    (later : List String) :
    let reading := Getopt.read table word (rest.take (span - 1)).head?
    Getopt.read table word (rest.take (span - 1) ++ later).head? = reading ∧
      reading.unknown = false ∧ reading.span - 1 = (rest.take (span - 1)).length ∧
      firstInfo reading.flags = none := by
  have hwidth := Args.argBoundary_span hb
  have hclassify := (classify_of_argBoundary hb).2
  rw [show table.argBoundary.classify word rest.head? =
    Getopt.iperf3rsArgBoundary table word rest.head? from rfl,
    Getopt.iperf3rsArgBoundary_eq table hdash] at hclassify
  have hpassed := Getopt.passed_of_takesOperand (Getopt.takesOperand_read table word) hclassify
  obtain ⟨hknown, hspan, hplain, halone⟩ := hpassed
  simp only [List.length_cons] at hwidth
  by_cases hone : span = 1
  · subst hone
    have hsame := halone rfl
    simp only [Nat.sub_self, List.take_zero, List.head?_nil, List.nil_append, List.length_nil]
    rw [hsame none, hsame later.head?]
    exact ⟨rfl, hknown, by omega, hplain⟩
  · cases rest with
    | nil => simp at hwidth; omega
    | cons operand rest =>
      have hne : ∃ k, span - 1 = k + 1 := ⟨span - 2, by omega⟩
      obtain ⟨k, hk⟩ := hne
      simp only [hk, List.take_succ_cons, List.head?_cons, List.cons_append]
      simp only [List.head?_cons] at hknown hspan hplain
      refine ⟨trivial, hknown, ?_, hplain⟩
      rw [hk, List.take_succ_cons] at hwidth
      omega

/-- One turn of the loop takes one upstream segment. -/
theorem loop_upstream {word : String} {rest : List String} {span : ℕ} {seg : Segmentation}
    (hdash : word ≠ "--")
    (hb : Args.argBoundary table.argBoundary word rest.head? = .ok (span, 0))
    (history : List Flag) :
    Getopt.loop table body (seg.cons (.upstream (word :: rest.take (span - 1)))).forwarded 0
        history =
      match Getopt.handle body history
        (Getopt.read table word (rest.take (span - 1)).head?).flags with
      | (history, some result) => (history, .returned result)
      | (history, none) => Getopt.loop table body seg.forwarded 0 history := by
  obtain ⟨hread, hknown, hspan, -⟩ := passed_upstream hdash hb seg.forwarded
  have hforwarded : (seg.cons (.upstream (word :: rest.take (span - 1)))).forwarded =
      word :: (rest.take (span - 1) ++ seg.forwarded) := by
    simp [Segmentation.forwarded, Segmentation.cons, Segment.upstreamWords]
  rw [hforwarded, Getopt.loop, if_neg hdash]
  simp only [hread]
  cases Getopt.handle body history
      (Getopt.read table word (rest.take (span - 1)).head?).flags with
  | mk history' result =>
    cases result with
    | some result => rfl
    | none =>
      simp only [hknown, Bool.false_eq_true, if_false]
      rw [hspan, Getopt.loop_operands]

theorem loop_forwarded {words : List String} {seg : Segmentation}
    (h : Reads table.argBoundary words seg) (hinfo : seg.information = .none)
    (history : List Flag) :
    Getopt.loop table body seg.forwarded 0 history =
      match Getopt.handle body history (seg.segments.flatMap (Segment.flags table)) with
      | (history, some result) => (history, .returned result)
      | (history, none) => Getopt.loop table body seg.tail 0 history := by
  induction h generalizing history with
  | finished => rfl
  | dashes rest => rfl
  | missing => rfl
  | unknown => rfl
  | inline word rest option value seg hdash hword hrest ih => exact ih hinfo history
  | separate word value rest option seg hdash hword htakes hrest ih => exact ih hinfo history
  | flag word rest option seg hdash hword htakes hrest ih => exact ih hinfo history
  | information word rest span info hdash hword hb hpos =>
    have hle := Args.argBoundary_info hb
    have hcases : info = 1 ∨ info = 2 := by omega
    rcases hcases with rfl | rfl <;> cases hinfo
  | upstream word rest span seg hdash hword hb hrest ih =>
    have hflags : (seg.cons (.upstream (word :: rest.take (span - 1)))).segments.flatMap
        (Segment.flags table) = (Getopt.read table word (rest.take (span - 1)).head?).flags ++
          seg.segments.flatMap (Segment.flags table) := rfl
    rw [loop_upstream hdash hb, hflags, Getopt.handle_append]
    cases Getopt.handle body history
        (Getopt.read table word (rest.take (span - 1)).head?).flags with
    | mk history' result =>
      cases result with
      | some result => rfl
      | none => exact ih hinfo history'

end Forwarded

namespace Segmentation

/-- The option that begins the tail may be known up to its last letter. -/
def tailFlags (table : Table) (seg : Segmentation) : List Flag :=
  match seg.tail with
  | [] => []
  | word :: later => if word = "--" then [] else (Getopt.read table word later.head?).flags

def flags (table : Table) (seg : Segmentation) : List Flag :=
  seg.segments.flatMap (Segment.flags table) ++ seg.tailFlags table

/-- An option that is unknown upstream begins the tail. -/
def endsUnknown (seg : Segmentation) : Bool :=
  match seg.tail with
  | [] => false
  | word :: _ => word != "--"

end Segmentation

section Outcome

variable {R : Type} {table : Table} {body : List Flag → Flag → Option R}

theorem plain_of_mem {flags : List Flag} (h : firstInfo flags = none) {flag : Flag}
    (hflag : flag ∈ flags) : flagInfo flag.1 = none :=
  List.findSome?_eq_none_iff.mp h flag hflag

theorem segment_flags_plain {words : List String} {seg : Segmentation}
    (h : Reads table.argBoundary words seg) (hinfo : seg.information = .none) :
    ∀ flag ∈ seg.segments.flatMap (Segment.flags table), flagInfo flag.1 = none := by
  induction h with
  | finished => simp
  | dashes rest => simp
  | missing => simp [Segment.flags]
  | unknown => simp
  | inline word rest option value seg hdash hword hrest ih => exact ih hinfo
  | separate word value rest option seg hdash hword htakes hrest ih => exact ih hinfo
  | flag word rest option seg hdash hword htakes hrest ih => exact ih hinfo
  | information word rest span info hdash hword hb hpos =>
    have hle := Args.argBoundary_info hb
    have hcases : info = 1 ∨ info = 2 := by omega
    rcases hcases with rfl | rfl <;> cases hinfo
  | upstream word rest span seg hdash hword hb hrest ih =>
    obtain ⟨-, -, -, hplain⟩ := passed_upstream hdash hb seg.forwarded
    intro flag hflag
    rcases List.mem_append.mp hflag with hflag | hflag
    · exact plain_of_mem hplain hflag
    · exact ih hinfo flag hflag

theorem tail_flags {words : List String} {seg : Segmentation} (hregular : table.Regular)
    (h : Reads table.argBoundary words seg) (hinfo : seg.information = .none)
    (hunknown : seg.endsUnknown = true) : ∃ word later, seg.tail = word :: later ∧
      word ≠ "--" ∧ seg.tailFlags table = (Getopt.read table word later.head?).flags ∧
      (Getopt.read table word later.head?).unknown = true ∧
      firstInfo (seg.tailFlags table) = none := by
  rcases h.tail hinfo with htail | ⟨later, htail⟩ | ⟨word, later, info, htail, hneg, hb⟩
  · rw [Segmentation.endsUnknown, htail] at hunknown
    cases hunknown
  · rw [Segmentation.endsUnknown, htail] at hunknown
    cases hunknown
  · have hdash : word ≠ "--" := by
      rw [Segmentation.endsUnknown, htail] at hunknown
      exact bne_iff_ne.mp hunknown
    have hflags : seg.tailFlags table = (Getopt.read table word later.head?).flags := by
      rw [Segmentation.tailFlags, htail]
      exact if_neg hdash
    have hclassify := (classify_of_argBoundary hb).2
    rw [show table.argBoundary.classify word later.head? =
      Getopt.iperf3rsArgBoundary table word later.head? from rfl,
      Getopt.iperf3rsArgBoundary_eq table hdash] at hclassify
    have hread := Getopt.unknown_of_boundaryLoop (fun flag hmem => hregular.read hmem)
      (Getopt.one_le_span_of_takesOperand (Getopt.takesOperand_read table word) _) hclassify hneg
    exact ⟨word, later, htail, hdash, hflags, hread.1, hflags ▸ hread.2⟩

theorem loop_tail {words : List String} {seg : Segmentation} (hregular : table.Regular)
    (h : Reads table.argBoundary words seg) (hinfo : seg.information = .none)
    (history : List Flag) :
    Getopt.loop table body seg.tail 0 history =
      match Getopt.handle body history (seg.tailFlags table) with
      | (history, some result) => (history, .returned result)
      | (history, none) => (history, if seg.endsUnknown then .unknown else .finished) := by
  by_cases hunknown : seg.endsUnknown = true
  · obtain ⟨word, later, htail, hdash, hflags, hread, -⟩ := tail_flags hregular h hinfo hunknown
    rw [htail, Getopt.loop, if_neg hdash, hflags]
    rcases hhandle : Getopt.handle body history (Getopt.read table word later.head?).flags with
      ⟨history', result⟩
    cases result <;> simp [hread, hunknown, hhandle]
  · have hquiet : seg.tail = [] ∨ ∃ later, seg.tail = "--" :: later := by
      cases htail : seg.tail with
      | nil => exact .inl rfl
      | cons word later =>
        rw [Segmentation.endsUnknown, htail] at hunknown
        exact .inr ⟨later, by simpa using hunknown⟩
    rw [if_neg hunknown]
    rcases hquiet with htail | ⟨later, htail⟩
    · rw [Segmentation.tailFlags, htail]
      rfl
    · rw [Segmentation.tailFlags, htail]
      rfl

theorem flags_plain {words : List String} {seg : Segmentation} (hregular : table.Regular)
    (h : Reads table.argBoundary words seg) (hinfo : seg.information = .none) :
    ∀ flag ∈ seg.flags table, flagInfo flag.1 = none := by
  intro flag hflag
  rcases List.mem_append.mp hflag with hflag | hflag
  · exact segment_flags_plain h hinfo flag hflag
  · by_cases hunknown : seg.endsUnknown = true
    · obtain ⟨-, -, -, -, -, -, hplain⟩ := tail_flags hregular h hinfo hunknown
      exact plain_of_mem hplain hflag
    · exfalso
      rw [Segmentation.tailFlags] at hflag
      cases htail : seg.tail with
      | nil =>
        rw [htail] at hflag
        cases hflag
      | cons word later =>
        rw [Segmentation.endsUnknown, htail] at hunknown
        rw [htail] at hflag
        simp only [bne_iff_ne, ne_eq, not_not] at hunknown
        simp [hunknown] at hflag

/-- The parse of the forwarded words comes to one pass over the flags of the segments and of the
tail. -/
theorem loop_reads {words : List String} {seg : Segmentation} (hregular : table.Regular)
    (h : Reads table.argBoundary words seg) (hinfo : seg.information = .none)
    (history : List Flag) :
    Getopt.loop table body seg.forwarded 0 history =
      match Getopt.handle body history (seg.flags table) with
      | (history, some result) => (history, .returned result)
      | (history, none) => (history, if seg.endsUnknown then .unknown else .finished) := by
  rw [loop_forwarded h hinfo, Segmentation.flags, Getopt.handle_append]
  cases Getopt.handle body history (seg.segments.flatMap (Segment.flags table)) with
  | mk history' result =>
    cases result with
    | some result => rfl
    | none => exact loop_tail hregular h hinfo history'

end Outcome

section Extract

variable {Url : Type}

variable {table : Table} {P : Platform Url} {args : List String} {env : Env}
  {app : AppOptions Url} {forwarded : List String}

theorem forwarded_of_extract {B : NativeBoundary}
    (h : Args.extractAppOptionsWithEnv B P args env = .ok (app, forwarded))
    (hhelp : app.showHelp = false) (hversion : app.showVersion = false) :
    ∃ program rest seg, args = program :: rest ∧ segmentation B rest = .ok seg ∧
      seg.information = .none ∧ forwarded = program :: seg.forwarded := by
  obtain ⟨program, rest, seg, rfl, hseg, hinfo⟩ := segmentation_of_extract h hhelp hversion
  refine ⟨program, rest, seg, rfl, hseg, hinfo, ?_⟩
  rw [extract_of_segmentation B P program rest env hseg hinfo] at h
  simp only [bind_eq_ok] at h
  obtain ⟨pushLabels, -, metricsLabels, -, settings, -, hresolve⟩ := h
  obtain ⟨-, -, -, rfl⟩ := resolveOptions_eq_ok.mp hresolve
  rfl

/-- A command line whose options are understood is parsed by libiperf into the flags of its
upstream segments, none of which asks for help or the version, and of an unknown option at the
front of the tail. The switch and its results are arbitrary. -/
theorem extract_loop (hregular : table.Regular)
    (h : Args.extractAppOptionsWithEnv table.argBoundary P args env = .ok (app, forwarded))
    (hhelp : app.showHelp = false) (hversion : app.showVersion = false) :
    ∃ program rest seg, args = program :: rest ∧
      segmentation table.argBoundary rest = .ok seg ∧ forwarded = program :: seg.forwarded ∧
      (∀ flag ∈ seg.flags table, flagInfo flag.1 = none) ∧
      ∀ (R : Type) (body : List Flag → Flag → Option R),
        Getopt.loop table body forwarded.tail 0 [] =
          match Getopt.handle body [] (seg.flags table) with
          | (history, some result) => (history, .returned result)
          | (history, none) => (history, if seg.endsUnknown then .unknown else .finished) := by
  obtain ⟨program, rest, seg, rfl, hseg, hinfo, rfl⟩ := forwarded_of_extract h hhelp hversion
  have hreads := reads_of_segmentation hseg
  exact ⟨program, rest, seg, rfl, hseg, rfl, flags_plain hregular hreads hinfo,
    fun R body => loop_reads hregular hreads hinfo []⟩

theorem sampleLibiperf_regular : sampleLibiperf.table.Regular :=
  ⟨by decide, by decide⟩

theorem extract_loop_push : ∃ program rest seg,
    ["iperf3-rs", "-sc", "--help", "--push.url", "-s", "-T", "--push.job", "-cz"] =
      program :: rest ∧
    segmentation sampleLibiperf.table.argBoundary rest = .ok seg ∧
    ["iperf3-rs", "-sc", "--help", "-T", "--push.job", "-cz"] = program :: seg.forwarded ∧
    (∀ flag ∈ seg.flags sampleLibiperf.table, flagInfo flag.1 = none) ∧
    ∀ (R : Type) (body : List Flag → Flag → Option R),
      Getopt.loop sampleLibiperf.table body ["-sc", "--help", "-T", "--push.job", "-cz"] 0 [] =
        match Getopt.handle body [] (seg.flags sampleLibiperf.table) with
        | (history, some result) => (history, .returned result)
        | (history, none) => (history, if seg.endsUnknown then .unknown else .finished) :=
  @extract_loop _ _ httpPlatform _ (fun _ => .ok none) _ _ sampleLibiperf_regular rfl rfl rfl

/-- The rest of what the adapted parser is: the switch ends at `h` and `v` with their outcomes, and
at another option only with an error, as the checks behind it do. -/
structure Libiperf.Adapted (lib : Libiperf) : Prop where
  regular : lib.table.Regular
  information : ∀ history flag info, 0 < info → flagInfo flag.1 = some info →
    lib.body history flag = some info
  rejects : ∀ history flag rc, flagInfo flag.1 = none → lib.body history flag = some rc → rc < 0
  checks : ∀ flags, lib.checks flags ≤ 0

section Adapted

variable {lib : Libiperf}

theorem handle_rejects (hadapted : lib.Adapted) {flags history history' : List Flag} {rc : ℤ}
    (hplain : ∀ flag ∈ flags, flagInfo flag.1 = none)
    (h : Getopt.handle lib.body history flags = (history', some rc)) : rc < 0 := by
  induction flags generalizing history with
  | nil => cases h
  | cons flag flags ih =>
    rw [Getopt.handle] at h
    cases hbody : lib.body history flag with
    | some result =>
      simp only [hbody, Prod.mk.injEq, Option.some.injEq] at h
      rw [← h.2]
      exact hadapted.rejects history flag result (hplain flag List.mem_cons_self) hbody
    | none =>
      rw [hbody] at h
      exact ih (fun other hmem => hplain other (List.mem_cons_of_mem _ hmem)) h

theorem parse_reads (hregular : lib.table.Regular) {words : List String} {seg : Segmentation}
    (h : Reads lib.table.argBoundary words seg) (hinfo : seg.information = .none) :
    (lib.parse seg.forwarded).1 =
      match Getopt.handle lib.body [] (seg.flags lib.table) with
      | (_, some rc) => rc
      | (history, none) => if seg.endsUnknown then 3 else lib.checks history := by
  rw [Libiperf.parse, loop_reads hregular h hinfo]
  cases Getopt.handle lib.body [] (seg.flags lib.table) with
  | mk history result =>
    cases result with
    | some rc => rfl
    | none => cases seg.endsUnknown <;> rfl

theorem parseArguments_ok {quoted : String → String} {outcome : ParseOutcome} :
    (parseArguments lib quoted forwarded).1 = .ok outcome ↔ forwarded.length < 2 ^ 31 ∧
      (∀ arg ∈ forwarded, Args.hasNul arg = false) ∧
      lib.outcome (lib.parse forwarded.tail).1 = .ok outcome := by
  rw [parseArguments]
  by_cases hlength : 2 ^ 31 ≤ forwarded.length
  · rw [if_pos hlength]
    constructor
    · intro houtcome
      cases houtcome
    · rintro ⟨hshort, -⟩
      omega
  · rw [if_neg hlength]
    cases hnul : forwarded.find? Args.hasNul with
    | some arg =>
      constructor
      · intro houtcome
        cases houtcome
      · rintro ⟨-, hplain, -⟩
        have hfound := List.find?_some hnul
        rw [hplain arg (List.mem_of_find?_eq_some hnul)] at hfound
        cases hfound
    | none =>
      have hplain : ∀ arg ∈ forwarded, Args.hasNul arg = false := fun arg harg =>
        Bool.eq_false_iff.mpr (List.find?_eq_none.mp hnul arg harg)
      constructor
      · intro houtcome
        exact ⟨by omega, hplain, houtcome⟩
      · rintro ⟨-, -, houtcome⟩
        exact houtcome

theorem outcome_eq_ok {rc : ℤ} {outcome : ParseOutcome} : lib.outcome rc = .ok outcome ↔
    (rc = 0 ∧ outcome = .parsed) ∨ (rc = 1 ∧ outcome = .help) ∨ (rc = 2 ∧ outcome = .version) ∨
      (rc = 3 ∧ outcome = .usageError) := by
  rw [Libiperf.outcome]
  split_ifs <;> simp <;> grind

/-- After the wrapper has found nothing to print, libiperf does not either. It complains about the
usage only because of the unknown option at which the wrapper has stopped, and it parses the words
if the switch takes all their options. -/
theorem extract_outcome (hadapted : lib.Adapted)
    (h : Args.extractAppOptionsWithEnv lib.table.argBoundary P args env = .ok (app, forwarded))
    (hhelp : app.showHelp = false) (hversion : app.showVersion = false)
    (quoted : String → String) :
    ∃ program rest seg, args = program :: rest ∧
      segmentation lib.table.argBoundary rest = .ok seg ∧
      ∀ outcome, (parseArguments lib quoted forwarded).1 = .ok outcome ↔
        forwarded.length < 2 ^ 31 ∧ (∀ arg ∈ forwarded, Args.hasNul arg = false) ∧
          ∃ history, Getopt.handle lib.body [] (seg.flags lib.table) = (history, none) ∧
            ((seg.endsUnknown = true ∧ outcome = .usageError) ∨
              (seg.endsUnknown = false ∧ lib.checks history = 0 ∧ outcome = .parsed)) := by
  obtain ⟨program, rest, seg, rfl, hseg, hinfo, rfl⟩ := forwarded_of_extract h hhelp hversion
  have hreads := reads_of_segmentation hseg
  have hplain := flags_plain hadapted.regular hreads hinfo
  refine ⟨program, rest, seg, rfl, hseg, fun outcome => ?_⟩
  rw [parseArguments_ok, List.tail_cons, parse_reads hadapted.regular hreads hinfo]
  refine and_congr_right fun _ => and_congr_right fun _ => ?_
  cases hhandle : Getopt.handle lib.body [] (seg.flags lib.table) with
  | mk history result =>
    cases result with
    | some rc =>
      have hneg := handle_rejects hadapted hplain hhandle
      simp only [outcome_eq_ok, Prod.mk.injEq, reduceCtorEq, and_false, false_and, exists_false,
        iff_false, not_or]
      refine ⟨?_, ?_, ?_, ?_⟩ <;> rintro ⟨hrc, -⟩ <;> omega
    | none =>
      have hle := hadapted.checks history
      simp only [outcome_eq_ok, Prod.mk.injEq, and_true, exists_eq_left']
      by_cases hunknown : seg.endsUnknown = true
      · simp [hunknown]
      · rw [Bool.not_eq_true] at hunknown
        simp only [hunknown, Bool.false_eq_true, if_false, false_and, false_or, true_and]
        constructor
        · rintro (hzero | ⟨hone, -⟩ | ⟨htwo, -⟩ | ⟨hthree, -⟩)
          · exact hzero
          · omega
          · omega
          · omega
        · exact .inl

theorem sampleLibiperf_adapted : sampleLibiperf.Adapted where
  regular := sampleLibiperf_regular
  information history flag info hpos hinfo := by
    rw [flagInfo] at hinfo
    show (if flag.1 = 104 then some 1 else if flag.1 = 118 then some 2 else none) = some info
    split_ifs at hinfo <;> cases hinfo <;> simp_all
  rejects history flag rc hplain hbody := by
    change (if flag.1 = 104 then some 1 else if flag.1 = 118 then some 2 else none) = some rc
      at hbody
    rw [flagInfo] at hplain
    split_ifs at hbody <;> simp_all
  checks _ := Int.le_refl 0

theorem extract_outcome_push : ∃ program rest seg,
    ["iperf3-rs", "-sc", "--help", "--push.url", "-s", "-cz"] = program :: rest ∧
    segmentation sampleLibiperf.table.argBoundary rest = .ok seg ∧
    ∀ outcome, (parseArguments sampleLibiperf id ["iperf3-rs", "-sc", "--help", "-cz"]).1 =
        .ok outcome ↔
      ["iperf3-rs", "-sc", "--help", "-cz"].length < 2 ^ 31 ∧
        (∀ arg ∈ ["iperf3-rs", "-sc", "--help", "-cz"], Args.hasNul arg = false) ∧
        ∃ history, Getopt.handle sampleLibiperf.body [] (seg.flags sampleLibiperf.table) =
            (history, none) ∧
          ((seg.endsUnknown = true ∧ outcome = .usageError) ∨
            (seg.endsUnknown = false ∧ sampleLibiperf.checks history = 0 ∧
              outcome = .parsed)) :=
  @extract_outcome _ httpPlatform _ (fun _ => .ok none) _ _ _ sampleLibiperf_adapted rfl rfl rfl id

theorem handle_information (hadapted : lib.Adapted) {flags : List Flag} {info : ℤ}
    (h : firstInfo flags = some info) (hpos : 0 < info) (history : List Flag) :
    (Getopt.handle lib.body history flags).2 =
      some ((Getopt.handle lib.body history (Getopt.plainFront flags)).2.getD info) := by
  induction flags generalizing history with
  | nil => cases h
  | cons flag flags ih =>
    rw [firstInfo, List.findSome?_cons] at h
    cases hflag : flagInfo flag.1 with
    | some i =>
      rw [hflag] at h
      obtain rfl := Option.some.inj h
      simp [Getopt.handle, Getopt.plainFront, hflag,
        hadapted.information history flag i hpos hflag]
    | none =>
      rw [hflag] at h
      simp only [Getopt.plainFront, List.takeWhile_cons, hflag, decide_true, if_true,
        Getopt.handle]
      cases lib.body history flag with
      | some rc => rfl
      | none => exact ih h _

/-- What is asked for, as the parser returns it. -/
def Information.code : Information → ℤ
  | .none | .other => 0
  | .help => 1
  | .version => 2

theorem code_ofInfo {info : ℤ} (hpos : 0 < info) (hle : info ≤ 2) :
    (Information.ofInfo info).code = info := by
  have hcases : info = 1 ∨ info = 2 := by omega
  rcases hcases with rfl | rfl <;> rfl

theorem loop_information (hadapted : lib.Adapted) {words : List String} {seg : Segmentation}
    (h : Reads lib.table.argBoundary words seg) (hinfo : seg.information ≠ .none)
    (history : List Flag) :
    ∃ history', Getopt.loop lib.table lib.body seg.forwarded 0 history =
      (history', .returned ((Getopt.handle lib.body history
        (Getopt.plainFront (seg.segments.flatMap (Segment.flags lib.table)))).2.getD
          seg.information.code)) := by
  induction h generalizing history with
  | finished | dashes rest | missing | unknown => exact absurd rfl hinfo
  | inline word rest option value seg hdash hword hrest ih => exact ih hinfo history
  | separate word value rest option seg hdash hword htakes hrest ih => exact ih hinfo history
  | flag word rest option seg hdash hword htakes hrest ih => exact ih hinfo history
  | information word rest span info hdash hword hb hpos =>
    have hle := Args.argBoundary_info hb
    have hclassify := (classify_of_argBoundary hb).2
    rw [show lib.table.argBoundary.classify word rest.head? =
      Getopt.iperf3rsArgBoundary lib.table word rest.head? from rfl,
      Getopt.iperf3rsArgBoundary_eq lib.table hdash] at hclassify
    have htakes := Getopt.takesOperand_read lib.table word
    have hfirst := Getopt.firstInfo_of_boundaryLoop
      (Getopt.one_le_span_of_takesOperand htakes _) hclassify hpos
    have hfront := Getopt.plainFront_of_takesOperand htakes hclassify
    have hhandle := handle_information hadapted hfirst hpos history
    have hwords : [Segment.upstream (word :: rest.take (span - 1))].flatMap
        Segment.upstreamWords ++ rest.drop (span - 1) = word :: rest := by
      simp [Segment.upstreamWords]
    have hflags : [Segment.upstream (word :: rest.take (span - 1))].flatMap
        (Segment.flags lib.table) =
          (Getopt.read lib.table word (rest.take (span - 1)).head?).flags := by
      simp [Segment.flags]
    simp only [Segmentation.forwarded, hwords, hflags, code_ofInfo hpos hle]
    rw [hfront, Getopt.loop, if_neg hdash]
    cases hresult : Getopt.handle lib.body history
        (Getopt.read lib.table word rest.head?).flags with
    | mk history' result =>
      rw [hresult] at hhandle
      simp only at hhandle
      subst hhandle
      exact ⟨history', by simp only [hresult]⟩
  | upstream word rest span seg hdash hword hb hrest ih =>
    obtain ⟨-, -, -, hplain⟩ := passed_upstream hdash hb seg.forwarded
    have hflags : (seg.cons (.upstream (word :: rest.take (span - 1)))).segments.flatMap
        (Segment.flags lib.table) =
          (Getopt.read lib.table word (rest.take (span - 1)).head?).flags ++
            seg.segments.flatMap (Segment.flags lib.table) := rfl
    have hcode : (seg.cons (.upstream (word :: rest.take (span - 1)))).information =
        seg.information := rfl
    rw [loop_upstream hdash hb, hflags, hcode, Getopt.plainFront_plain hplain,
      Getopt.handle_append]
    cases Getopt.handle lib.body history
        (Getopt.read lib.table word (rest.take (span - 1)).head?).flags with
    | mk history' result =>
      cases result with
      | some rc => exact ⟨history', rfl⟩
      | none => exact ih hinfo history'

/-- The wrapper prints what it is asked for without a parse. libiperf would come to the same,
unless its switch rejects an option before. -/
theorem extract_information (hadapted : lib.Adapted) (program : String) {rest : List String}
    {seg : Segmentation} (hseg : segmentation lib.table.argBoundary rest = .ok seg)
    (hinfo : seg.information ≠ .none) (P : Platform Url) (env : Env) :
    ∃ app, Args.extractAppOptionsWithEnv lib.table.argBoundary P (program :: rest) env =
        .ok (app, [program]) ∧
      (app.showHelp = true ↔ seg.information = .help) ∧
      (app.showVersion = true ↔ seg.information = .version) ∧
      ∀ before, before = Getopt.plainFront (seg.segments.flatMap (Segment.flags lib.table)) →
        (Getopt.handle lib.body [] before).2 = none →
        lib.outcome (lib.parse seg.forwarded).1 =
          .ok (if app.showHelp then .help else .version) := by
  obtain ⟨history, hloop⟩ := loop_information hadapted (reads_of_segmentation hseg) hinfo []
  refine ⟨_, extract_of_information _ P program rest env hseg hinfo, ?_, ?_, ?_⟩
  · simp [Args.informationOptions]
  · simp [Args.informationOptions]
  · rintro before rfl haccepted
    rw [Libiperf.parse, hloop, haccepted]
    cases hi : seg.information with
    | none => exact absurd hi hinfo
    | other => exact absurd hi (reads_of_segmentation hseg).information_ne_other
    | help => rfl
    | version => rfl

theorem extract_information_version : ∃ seg app,
    segmentation sampleLibiperf.table.argBoundary ["--push.job", "-h", "-svh", "-c"] = .ok seg ∧
    Args.extractAppOptionsWithEnv sampleLibiperf.table.argBoundary httpPlatform
      ["iperf3-rs", "--push.job", "-h", "-svh", "-c"] (fun _ => .ok none) =
        .ok (app, ["iperf3-rs"]) ∧ app.showVersion = true ∧
    sampleLibiperf.outcome (sampleLibiperf.parse seg.forwarded).1 = .ok .version := by
  have hlater : Reads sampleLibiperf.table.argBoundary ["-svh", "-c"] _ :=
    .information "-svh" ["-c"] 1 2 (by decide) rfl rfl (by decide)
  have hseg := segmentation_of_reads
    (.separate "--push.job" "-h" ["-svh", "-c"] .pushJob _ (by decide) rfl rfl hlater)
  obtain ⟨app, hextract, hhelp, hversion, hparse⟩ := extract_information
    sampleLibiperf_adapted "iperf3-rs" hseg (by decide) httpPlatform (fun _ => .ok none)
  have hquiet : app.showHelp = false := Bool.eq_false_iff.mpr fun hshow => by cases hhelp.mp hshow
  refine ⟨_, app, hseg, hextract, hversion.mpr rfl, ?_⟩
  rw [hparse _ rfl rfl, hquiet]
  rfl

end Adapted

end Extract

end Iperf3Rs
