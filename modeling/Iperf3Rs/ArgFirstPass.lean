import Iperf3Rs.ArgSettings

/-! The first pass of `extract_app_options_with_env` reads the command line in segments and records
their spans. -/

namespace Iperf3Rs

def Segment.spans : Segment → List ℕ
  | .wrapper _ _ words => 0 :: .replicate (words.length - 1) 1
  | .upstream words => words.length :: .replicate (words.length - 1) 1

def segmentStarts : ℕ → List Segment → List ℕ
  | _, [] => []
  | position, segment :: segments =>
    position :: segmentStarts (position + segment.words.length) segments

namespace Segmentation

def tailSpans (seg : Segmentation) : List ℕ :=
  match seg.tail with
  | [] => []
  | _ :: rest => seg.tailSpan :: .replicate rest.length 1

def spans (seg : Segmentation) : List ℕ := seg.segments.flatMap Segment.spans ++ seg.tailSpans

/-- Where a pass that begins at `position` looks for an option: at every segment, and at the
tail unless it has stopped at a request for information. -/
def starts (position : ℕ) (seg : Segmentation) : List ℕ :=
  segmentStarts position seg.segments ++
    if seg.information = .none ∧ seg.tail ≠ [] then [position + seg.width] else []

theorem tailSpans_one (segments : List Segment) (tail : List String) (information : Information) :
    tailSpans ⟨segments, tail, 1, information⟩ = .replicate tail.length 1 := by
  cases tail <;> simp [tailSpans, List.replicate_succ]

theorem cons_spans (segment : Segment) (seg : Segmentation) :
    (seg.cons segment).spans = segment.spans ++ seg.spans := by
  simp only [spans, cons, List.flatMap_cons, List.append_assoc]
  rfl

theorem cons_forwarded (segment : Segment) (seg : Segmentation) :
    (seg.cons segment).forwarded = segment.upstreamWords ++ seg.forwarded := by
  simp only [forwarded, cons, List.flatMap_cons, List.append_assoc]

theorem cons_starts (position : ℕ) (segment : Segment) (seg : Segmentation) :
    (seg.cons segment).starts position =
      position :: seg.starts (position + segment.words.length) := by
  simp only [starts, cons, segmentStarts, width, List.flatMap_cons, List.length_append,
    List.cons_append, Nat.add_assoc]

end Segmentation

namespace Args

theorem getElem?_front {α : Type} (front : List α) (word : α) (rest : List α) :
    (front ++ word :: rest)[front.length]? = some word := by
  simp

theorem getElem?_next {α : Type} (front : List α) (word : α) (rest : List α) :
    (front ++ word :: rest)[front.length + 1]? = rest.head? := by
  rw [List.getElem?_append_right (by omega), List.head?_eq_getElem?]
  have hk : front.length + 1 - front.length = 1 := by omega
  simp [hk]

theorem set_front (pre : List ℕ) (value count : ℕ) :
    (pre ++ List.replicate (count + 1) 1).set pre.length value =
      pre ++ value :: .replicate count 1 := by
  rw [List.set_append_right _ _ (Nat.le_refl _), Nat.sub_self, List.replicate_succ, List.set_cons_zero]

theorem argBoundary_span {B : ArgBoundary} {word : String} {rest : List String} {span : ℕ}
    {info : ℤ} (h : argBoundary B word rest.head? = .ok (span, info)) :
    (word :: rest.take (span - 1)).length = span := by
  simp only [argBoundary] at h
  split at h
  · cases h
  · simp only [Except.ok.injEq] at h
    have hspan := B.span word rest.head?
    rw [h] at hspan
    rcases hspan with hone | ⟨htwo, hsome⟩
    · simp only at hone
      simp [hone]
    · simp only at htwo
      cases rest with
      | nil => cases hsome
      | cons operand rest => simp [htwo]

theorem argBoundary_info {B : NativeBoundary} {word : String} {next : Option String} {span : ℕ}
    {info : ℤ} (h : argBoundary B word next = .ok (span, info)) : info ≤ 2 := by
  simp only [argBoundary] at h
  split at h
  · cases h
  · have hinfo := B.info word next
    rwa [Except.ok.inj h] at hinfo

theorem optionKey_of_wrapperWord {word : String} {option : WrapperOption}
    {value : Option String} (h : wrapperWord word = some (option, value)) :
    optionKey word = (option.name, value.isSome) := by
  simp only [wrapperWord] at h
  split at h <;> next he =>
    simp only [Option.map_eq_some_iff, Prod.mk.injEq] at h
    obtain ⟨o, ho, rfl, rfl⟩ := h
    simp [optionKey, he, name_of_wrapperOption ho]

theorem wrapperValue_of_wrapperWord {word : String} (h : wrapperWord word = none) :
    wrapperValue (optionKey word).1 = none := by
  simp only [wrapperWord] at h
  split at h <;> next he =>
    simp only [Option.map_eq_none_iff] at h
    simp [optionKey, he, wrapperValue_eq, h]

theorem replicate_operand {word : String} {rest : List String} {span : ℕ}
    (hspan : (word :: rest.take (span - 1)).length = span) :
    List.replicate rest.length 1 =
      List.replicate (span - 1) 1 ++ List.replicate (rest.drop (span - 1)).length 1 := by
  rw [List.replicate_append_replicate, List.length_drop]
  congr 1
  simp only [List.length_cons, List.length_take] at hspan
  omega

/-- The boundaries found when the words from `front` on have the segmentation `seg`. -/
def boundariesOf (pre starts : List ℕ) (position : ℕ) (seg : Segmentation) : Boundaries where
  spans := pre ++ seg.spans
  starts := starts ++ seg.starts position
  showHelp := seg.information == .help
  showVersion := seg.information == .version

theorem boundariesOf_cons (pre starts : List ℕ) (position : ℕ) (segment : Segment)
    (seg : Segmentation) :
    boundariesOf pre starts position (seg.cons segment) =
      boundariesOf (pre ++ segment.spans) (starts ++ [position])
        (position + segment.words.length) seg := by
  simp only [boundariesOf, Segmentation.cons_spans, Segmentation.cons_starts, List.append_assoc,
    List.singleton_append]
  rfl

section Step

variable (B : ArgBoundary) {front : List String} {pre starts : List ℕ} {fuel : ℕ}

theorem boundaries_finished (position : ℕ) (hpast : front.length ≤ position) :
    argumentBoundariesFrom B front fuel position ⟨pre, starts, false, false⟩ =
      .ok ⟨pre, starts, false, false⟩ := by
  cases fuel with
  | zero => rfl
  | succ fuel => simp only [argumentBoundariesFrom, List.getElem?_eq_none hpast]

theorem boundaries_wrapper (hpre : pre.length = front.length) {word : String}
    (hdash : word ≠ "--") {option : WrapperOption} {value : Option String}
    (hword : wrapperWord word = some (option, value)) (rest : List String) :
    argumentBoundariesFrom B (front ++ word :: rest) (fuel + 1) front.length
        ⟨pre ++ .replicate (word :: rest).length 1, starts, false, false⟩ =
      argumentBoundariesFrom B (front ++ word :: rest) fuel
        (front.length + if option.takesValue && !value.isSome && 0 < rest.length then 2 else 1)
        ⟨pre ++ 0 :: .replicate rest.length 1, starts ++ [front.length], false, false⟩ := by
  have hnext : (front.length + 1 < (front ++ word :: rest).length) = (0 < rest.length) := by
    simp only [List.length_append, List.length_cons, eq_iff_iff]
    omega
  simp only [argumentBoundariesFrom, getElem?_front, hdash, if_false,
    optionKey_of_wrapperWord hword, wrapperValue_eq, wrapperOption_name, Option.map_some, hnext]
  rw [← hpre, List.length_cons, set_front]

theorem boundaries_boundary (hpre : pre.length = front.length) {word : String}
    (hdash : word ≠ "--") (hword : wrapperWord word = none) (rest : List String) :
    argumentBoundariesFrom B (front ++ word :: rest) (fuel + 1) front.length
        ⟨pre ++ .replicate (word :: rest).length 1, starts, false, false⟩ =
      match argBoundary B word rest.head? with
      | .error e => .error e
      | .ok (span, info) =>
        let spans := pre ++ span :: .replicate rest.length 1
        if 0 < info then .ok ⟨spans, starts ++ [front.length], info == 1, info == 2⟩
        else if info < 0 then .ok ⟨spans, starts ++ [front.length], false, false⟩
        else argumentBoundariesFrom B (front ++ word :: rest) fuel (front.length + span)
          ⟨spans, starts ++ [front.length], false, false⟩ := by
  have hset : ∀ span, (pre ++ List.replicate (word :: rest).length 1).set front.length span =
      pre ++ span :: .replicate rest.length 1 := by
    intro span
    rw [← hpre, List.length_cons, set_front]
  cases hspan : argBoundary B word rest.head? with
  | error e =>
    simp only [argumentBoundariesFrom, getElem?_front, getElem?_next, hdash, if_false,
      wrapperValue_of_wrapperWord hword, hspan]
  | ok found =>
    simp only [argumentBoundariesFrom, getElem?_front, getElem?_next, hdash, if_false,
      wrapperValue_of_wrapperWord hword, hset, hspan]

/-- From any position on, the pass finds the boundaries of the segmentation of `suffix`. -/
def FirstPassReads (suffix : List String) : Prop :=
  ∀ (fuel : ℕ) (front : List String) (pre starts : List ℕ), pre.length = front.length →
    suffix.length ≤ fuel →
    argumentBoundariesFrom B (front ++ suffix) fuel front.length
        ⟨pre ++ .replicate suffix.length 1, starts, false, false⟩ =
      (segmentation B suffix).map (boundariesOf pre starts front.length)

/-- The pass goes on behind a segment. -/
theorem FirstPassReads.advance {later words : List String} (h : FirstPassReads B later)
    (hpre : pre.length = front.length) (hfuel : later.length ≤ fuel) (starts : List ℕ)
    (segment : Segment) (hwords : segment.words ++ later = words)
    (hspans : segment.spans.length = segment.words.length) :
    argumentBoundariesFrom B (front ++ words) fuel (front.length + segment.words.length)
        ⟨pre ++ segment.spans ++ .replicate later.length 1, starts ++ [front.length], false, false⟩ =
      ((segmentation B later).map (.cons segment)).map (boundariesOf pre starts front.length) := by
  have hgo := h fuel (front ++ segment.words) (pre ++ segment.spans) (starts ++ [front.length])
    (by simp [hpre, hspans]) hfuel
  rw [List.length_append] at hgo
  rw [← hwords, ← List.append_assoc, hgo]
  cases segmentation B later with
  | error e => rfl
  | ok seg => simp only [Except.map, boundariesOf_cons]

end Step

theorem exists_fuel {word : String} {rest : List String} {fuel : ℕ}
    (h : (word :: rest).length ≤ fuel) : ∃ n, fuel = n + 1 ∧ rest.length ≤ n := by
  rw [List.length_cons] at h
  exact ⟨fuel - 1, by omega, by omega⟩

theorem firstPassReads (B : ArgBoundary) (suffix : List String) : FirstPassReads B suffix := by
  induction suffix using segmentation.induct B with
  | case1 =>
    intro fuel front pre starts hpre hfuel
    rw [List.append_nil, boundaries_finished B _ (Nat.le_refl _), segmentation]
    simp [Except.map, boundariesOf, Segmentation.spans, Segmentation.starts,
      Segmentation.tailSpans, segmentStarts]
  | case2 rest =>
    intro fuel front pre starts hpre hfuel
    obtain ⟨fuel, rfl, -⟩ := exists_fuel hfuel
    rw [segmentation]
    simp [argumentBoundariesFrom, Except.map, boundariesOf, Segmentation.spans,
      Segmentation.starts, Segmentation.tailSpans, Segmentation.width, segmentStarts,
      List.replicate_succ]
  | case3 word rest hdash option value hword ih =>
    intro fuel front pre starts hpre hfuel
    obtain ⟨fuel, rfl, hle⟩ := exists_fuel hfuel
    have hgo := ih.advance B hpre hle starts (.wrapper option (some value) [word]) rfl rfl
    rw [boundaries_wrapper B hpre hdash hword, segmentation]
    simpa [hdash, hword, Segment.spans, Segment.words] using hgo
  | case4 word hdash option hword htakes =>
    intro fuel front pre starts hpre hfuel
    obtain ⟨fuel, rfl, hle⟩ := exists_fuel hfuel
    have hpast : (front ++ [word]).length ≤ front.length + 1 := by simp
    rw [boundaries_wrapper B hpre hdash hword, segmentation]
    simp only [List.length_nil, Nat.lt_irrefl, decide_false, Bool.and_false, Bool.false_eq_true,
      if_false, boundaries_finished B _ hpast]
    simp [hdash, hword, htakes, Except.map, boundariesOf, Segmentation.spans,
      Segmentation.starts, Segmentation.tailSpans, Segment.spans, segmentStarts]
  | case5 word hdash option hword htakes value rest ih =>
    intro fuel front pre starts hpre hfuel
    obtain ⟨fuel, rfl, hle⟩ := exists_fuel hfuel
    have hgo := ih.advance B hpre (Nat.le_of_succ_le hle) starts
      (.wrapper option (some value) [word, value]) rfl rfl
    rw [boundaries_wrapper B hpre hdash hword, segmentation]
    simpa [hdash, hword, htakes, Segment.spans, Segment.words, List.replicate_succ] using hgo
  | case6 word rest hdash option hword htakes ih =>
    intro fuel front pre starts hpre hfuel
    obtain ⟨fuel, rfl, hle⟩ := exists_fuel hfuel
    have hgo := ih.advance B hpre hle starts (.wrapper option none [word]) rfl rfl
    rw [boundaries_wrapper B hpre hdash hword, segmentation]
    simpa [hdash, hword, htakes, Segment.spans, Segment.words] using hgo
  | case7 word rest hdash hword e hb =>
    intro fuel front pre starts hpre hfuel
    obtain ⟨fuel, rfl, hle⟩ := exists_fuel hfuel
    rw [segmentation, boundaries_boundary B hpre hdash hword]
    simp [hdash, hword, hb, Except.map]
  | case8 word rest hdash hword span info hb hinfo =>
    intro fuel front pre starts hpre hfuel
    obtain ⟨fuel, rfl, hle⟩ := exists_fuel hfuel
    have hspan := argBoundary_span hb
    have hsome := Information.ofInfo_ne_none info
    obtain ⟨hhelp, hversion⟩ := Information.ofInfo_flags info
    rw [segmentation, boundaries_boundary B hpre hdash hword]
    simp only [hdash, hword, hb, hinfo, if_false, if_true, Except.map, boundariesOf,
      Segmentation.spans, Segmentation.starts, hsome, hhelp, hversion, false_and,
      segmentStarts, List.append_nil, List.flatMap_cons, List.flatMap_nil, Segment.spans, hspan,
      Segmentation.tailSpans_one, replicate_operand hspan, List.cons_append]
  | case9 word rest hdash hword span info hb hpos hinfo =>
    intro fuel front pre starts hpre hfuel
    obtain ⟨fuel, rfl, hle⟩ := exists_fuel hfuel
    rw [segmentation, boundaries_boundary B hpre hdash hword]
    simp [hdash, hword, hb, hpos, hinfo, Except.map, boundariesOf, Segmentation.spans,
      Segmentation.starts, Segmentation.tailSpans, Segmentation.width, segmentStarts]
  | case10 word rest hdash hword span info hb later hpos hneg =>
    rename_i ih
    intro fuel front pre starts hpre hfuel
    obtain ⟨fuel, rfl, hle⟩ := exists_fuel hfuel
    have hspan := argBoundary_span hb
    have hlater : later.length ≤ fuel := Nat.le_trans (by simp [later]) hle
    have hwords : word :: rest.take (span - 1) ++ later = word :: rest := by simp [later]
    have hgo := ih.advance B hpre hlater starts (.upstream (word :: rest.take (span - 1))) hwords
      (by simp [Segment.words, Segment.spans])
    rw [segmentation, boundaries_boundary B hpre hdash hword]
    simp only [hdash, hword, hb, hpos, hneg, if_false]
    simp only [Segment.words, Segment.spans, hspan] at hgo
    rw [← hgo, replicate_operand hspan, List.append_assoc, List.cons_append]

theorem argumentBoundaries_eq (B : ArgBoundary) (args : List String) :
    argumentBoundaries B args = (segmentation B args).map (boundariesOf [] [] 0) :=
  firstPassReads B args args.length [] [] [] rfl (Nat.le_refl _)

end Args

end Iperf3Rs
