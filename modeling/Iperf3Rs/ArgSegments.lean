import Iperf3Rs.ArgsExtraction
import Mathlib.Tactic.Common

/-! What the wrapper does to a command line, as one left-to-right reading. A segment is a wrapper
option with its value or an upstream option with its operand; `--`, or an option unknown
upstream, begins a tail that is left alone. -/

namespace Iperf3Rs

namespace WrapperOption

def name : WrapperOption → String
  | .pushUrl => "--push.url"
  | .pushJob => "--push.job"
  | .pushLabel => "--push.label"
  | .pushTimeout => "--push.timeout"
  | .pushRetries => "--push.retries"
  | .pushUserAgent => "--push.user-agent"
  | .pushInterval => "--push.interval"
  | .pushDeleteOnExit => "--push.delete-on-exit"
  | .metricsFile => "--metrics.file"
  | .metricsFormat => "--metrics.format"
  | .metricsLabel => "--metrics.label"
  | .metricsPrefix => "--metrics.prefix"

def takesValue (option : WrapperOption) : Bool := option != .pushDeleteOnExit

end WrapperOption

theorem wrapperOption_name (option : WrapperOption) : wrapperOption option.name = some option := by
  cases option <;> rfl

theorem name_of_wrapperOption {key : String} {option : WrapperOption}
    (h : wrapperOption key = some option) : option.name = key := by
  simp only [wrapperOption] at h
  split at h <;> cases h <;> rfl

/-- The option a word names, with its inline value. -/
def wrapperWord (word : String) : Option (WrapperOption × Option String) :=
  match Args.splitLongValue word with
  | some (key, value) => (wrapperOption key).map fun option => (option, some value)
  | none => (wrapperOption word).map fun option => (option, none)

theorem wrapperWord_inline {word : String} {option : WrapperOption} {value : String}
    (h : wrapperWord word = some (option, some value)) :
    Args.splitLongValue word = some (option.name, value) := by
  simp only [wrapperWord] at h
  split at h
  · next key inline he =>
    simp only [Option.map_eq_some_iff, Prod.mk.injEq, Option.some.injEq] at h
    obtain ⟨o, ho, rfl, rfl⟩ := h
    rw [he, name_of_wrapperOption ho]
  · simp at h

theorem wrapperWord_separate {word : String} {option : WrapperOption}
    (h : wrapperWord word = some (option, none)) :
    Args.splitLongValue word = none ∧ word = option.name := by
  simp only [wrapperWord] at h
  split at h
  · simp at h
  · next he =>
    simp only [Option.map_eq_some_iff, Prod.mk.injEq, and_true] at h
    obtain ⟨o, ho, rfl⟩ := h
    exact ⟨he, (name_of_wrapperOption ho).symm⟩

theorem wrapperValue_eq (key : String) :
    Args.wrapperValue key = (wrapperOption key).map WrapperOption.takesValue := by
  simp only [Args.wrapperValue]
  cases wrapperOption key with
  | none => rfl
  | some option => cases option <;> rfl

inductive Segment where
  | wrapper (option : WrapperOption) (value : Option String) (words : List String)
  | upstream (words : List String)

def Segment.words : Segment → List String
  | .wrapper _ _ words => words
  | .upstream words => words

/-- The words of a segment that libiperf is to see. -/
def Segment.upstreamWords : Segment → List String
  | .wrapper _ _ _ => []
  | .upstream words => words

inductive Information where
  | none
  | help
  | version
  | other
  deriving DecidableEq

/-- `tailSpan` is the width of the unknown option that begins the tail, or 1. -/
structure Segmentation where
  segments : List Segment
  tail : List String
  tailSpan : ℕ
  information : Information

namespace Segmentation

def cons (segment : Segment) (seg : Segmentation) : Segmentation :=
  { seg with segments := segment :: seg.segments }

def width (seg : Segmentation) : ℕ := (seg.segments.flatMap Segment.words).length

def forwarded (seg : Segmentation) : List String :=
  seg.segments.flatMap Segment.upstreamWords ++ seg.tail

end Segmentation

def Information.ofInfo (info : ℤ) : Information :=
  if info = 1 then .help else if info = 2 then .version else .other

def segmentation (B : ArgBoundary) : List String → Except String Segmentation
  | [] => .ok ⟨[], [], 1, .none⟩
  | word :: rest =>
    if word = "--" then .ok ⟨[], word :: rest, 1, .none⟩
    else
      match wrapperWord word with
      | some (option, some value) =>
        (segmentation B rest).map (.cons (.wrapper option (some value) [word]))
      | some (option, none) =>
        if option.takesValue then
          match rest with
          | [] => .ok ⟨[.wrapper option none [word]], [], 1, .none⟩
          | value :: rest =>
            (segmentation B rest).map (.cons (.wrapper option (some value) [word, value]))
        else (segmentation B rest).map (.cons (.wrapper option none [word]))
      | none =>
        match Args.argBoundary B word rest.head? with
        | .error e => .error e
        | .ok (span, info) =>
          let operand := rest.take (span - 1)
          let later := rest.drop (span - 1)
          if 0 < info then .ok ⟨[.upstream (word :: operand)], later, 1, .ofInfo info⟩
          else if info < 0 then .ok ⟨[], word :: rest, span, .none⟩
          else (segmentation B later).map (.cons (.upstream (word :: operand)))
termination_by words => words.length
decreasing_by all_goals simp +arith

theorem Information.ofInfo_ne_none (info : ℤ) : Information.ofInfo info ≠ .none := by
  by_cases hhelp : info = 1
  · simp [ofInfo, hhelp]
  · by_cases hversion : info = 2 <;> simp [ofInfo, hhelp, hversion]

theorem Information.ofInfo_flags (info : ℤ) :
    (info == 1) = (Information.ofInfo info == .help) ∧
      (info == 2) = (Information.ofInfo info == .version) := by
  by_cases hhelp : info = 1
  · simp [ofInfo, hhelp]
  · by_cases hversion : info = 2 <;> simp [ofInfo, hhelp, hversion]

theorem exceptMap_eq_ok {ε α β : Type} {x : Except ε α} {f : α → β} {b : β} :
    x.map f = .ok b ↔ ∃ a, x = .ok a ∧ f a = b := by
  cases x <;> simp [Except.map]

/-- The segmentations of command lines, as a relation to reason by induction over. -/
inductive Reads (B : ArgBoundary) : List String → Segmentation → Prop
  | finished : Reads B [] ⟨[], [], 1, .none⟩
  | dashes (rest : List String) : Reads B ("--" :: rest) ⟨[], "--" :: rest, 1, .none⟩
  | inline (word : String) (rest : List String) (option : WrapperOption) (value : String)
      (seg : Segmentation) (hdash : word ≠ "--")
      (hword : wrapperWord word = some (option, some value)) (hrest : Reads B rest seg) :
      Reads B (word :: rest) (seg.cons (.wrapper option (some value) [word]))
  | missing (word : String) (option : WrapperOption) (hdash : word ≠ "--")
      (hword : wrapperWord word = some (option, none)) (htakes : option.takesValue = true) :
      Reads B [word] ⟨[.wrapper option none [word]], [], 1, .none⟩
  | separate (word value : String) (rest : List String) (option : WrapperOption)
      (seg : Segmentation) (hdash : word ≠ "--")
      (hword : wrapperWord word = some (option, none)) (htakes : option.takesValue = true)
      (hrest : Reads B rest seg) :
      Reads B (word :: value :: rest) (seg.cons (.wrapper option (some value) [word, value]))
  | flag (word : String) (rest : List String) (option : WrapperOption) (seg : Segmentation)
      (hdash : word ≠ "--") (hword : wrapperWord word = some (option, none))
      (htakes : option.takesValue = false) (hrest : Reads B rest seg) :
      Reads B (word :: rest) (seg.cons (.wrapper option none [word]))
  | information (word : String) (rest : List String) (span : ℕ) (info : ℤ)
      (hdash : word ≠ "--") (hword : wrapperWord word = none)
      (hb : Args.argBoundary B word rest.head? = .ok (span, info)) (hinfo : 0 < info) :
      Reads B (word :: rest)
        ⟨[.upstream (word :: rest.take (span - 1))], rest.drop (span - 1), 1, .ofInfo info⟩
  | unknown (word : String) (rest : List String) (span : ℕ) (info : ℤ)
      (hdash : word ≠ "--") (hword : wrapperWord word = none)
      (hb : Args.argBoundary B word rest.head? = .ok (span, info)) (hinfo : info < 0) :
      Reads B (word :: rest) ⟨[], word :: rest, span, .none⟩
  | upstream (word : String) (rest : List String) (span : ℕ) (seg : Segmentation)
      (hdash : word ≠ "--") (hword : wrapperWord word = none)
      (hb : Args.argBoundary B word rest.head? = .ok (span, 0))
      (hrest : Reads B (rest.drop (span - 1)) seg) :
      Reads B (word :: rest) (seg.cons (.upstream (word :: rest.take (span - 1))))

theorem reads_of_segmentation {B : ArgBoundary} {words : List String} {seg : Segmentation}
    (h : segmentation B words = .ok seg) : Reads B words seg := by
  induction words using segmentation.induct B generalizing seg with
  | case1 =>
    rw [segmentation] at h
    cases h
    exact .finished
  | case2 rest =>
    rw [segmentation] at h
    cases h
    exact .dashes rest
  | case3 word rest hdash option value hword ih =>
    simp only [segmentation, hdash, if_false, hword] at h
    obtain ⟨seg', hrest, rfl⟩ := exceptMap_eq_ok.mp h
    exact .inline word rest option value seg' hdash hword (ih hrest)
  | case4 word hdash option hword htakes =>
    simp only [segmentation, hdash, if_false, hword, htakes, if_true, Except.ok.injEq] at h
    subst h
    exact .missing word option hdash hword htakes
  | case5 word hdash option hword htakes value rest ih =>
    rw [segmentation] at h
    simp only [hdash, if_false, hword, htakes, if_true] at h
    obtain ⟨seg', hrest, rfl⟩ := exceptMap_eq_ok.mp h
    exact .separate word value rest option seg' hdash hword htakes (ih hrest)
  | case6 word rest hdash option hword htakes ih =>
    rw [segmentation] at h
    simp only [hdash, if_false, hword, htakes] at h
    obtain ⟨seg', hrest, rfl⟩ := exceptMap_eq_ok.mp h
    exact .flag word rest option seg' hdash hword (Bool.eq_false_iff.mpr htakes) (ih hrest)
  | case7 word rest hdash hword e hb =>
    rw [segmentation] at h
    simp only [hdash, if_false, hword, hb] at h
    cases h
  | case8 word rest hdash hword span info hb hinfo =>
    rw [segmentation] at h
    simp only [hdash, if_false, hword, hb, hinfo, if_true, Except.ok.injEq] at h
    subst h
    exact .information word rest span info hdash hword hb hinfo
  | case9 word rest hdash hword span info hb hpos hinfo =>
    rw [segmentation] at h
    simp only [hdash, if_false, hword, hb, hpos, hinfo, if_true, Except.ok.injEq] at h
    subst h
    exact .unknown word rest span info hdash hword hb hinfo
  | case10 word rest hdash hword span info hb later hpos hneg =>
    rename_i ih
    rw [segmentation] at h
    simp only [hdash, if_false, hword, hb, hpos, hneg] at h
    obtain ⟨seg', hrest, rfl⟩ := exceptMap_eq_ok.mp h
    obtain rfl : info = 0 := by omega
    exact .upstream word rest span seg' hdash hword hb (ih hrest)

theorem segmentation_of_reads {B : ArgBoundary} {words : List String} {seg : Segmentation}
    (h : Reads B words seg) : segmentation B words = .ok seg := by
  induction h with
  | finished => rw [segmentation]
  | dashes rest => rw [segmentation, if_pos rfl]
  | inline word rest option value seg hdash hword hrest ih =>
    rw [segmentation]
    simp only [hdash, if_false, hword, ih]
    rfl
  | missing word option hdash hword htakes =>
    rw [segmentation]
    simp only [hdash, if_false, hword, htakes, if_true]
  | separate word value rest option seg hdash hword htakes hrest ih =>
    rw [segmentation]
    simp only [hdash, if_false, hword, htakes, if_true, ih]
    rfl
  | flag word rest option seg hdash hword htakes hrest ih =>
    rw [segmentation]
    simp only [hdash, if_false, hword, htakes, Bool.false_eq_true, ih]
    rfl
  | information word rest span info hdash hword hb hinfo =>
    rw [segmentation]
    simp only [hdash, if_false, hword, hb, hinfo, if_true]
  | unknown word rest span info hdash hword hb hinfo =>
    have hpos : ¬ 0 < info := by omega
    rw [segmentation]
    simp only [hdash, if_false, hword, hb, hpos, hinfo, if_true]
  | upstream word rest span seg hdash hword hb hrest ih =>
    rw [segmentation]
    simp only [hdash, if_false, hword, hb, Int.lt_irrefl, ih]
    rfl

end Iperf3Rs
