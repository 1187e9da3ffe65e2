import Iperf3Rs.ArgFirstPass

/-! The second pass of `extract_app_options_with_env` goes along the spans that the first one has
recorded, from the start of a segment to the start of the next. -/

namespace Iperf3Rs

/-- The state of the second pass with other words forwarded and other positions visited. -/
def Extraction.visited (s : Extraction) (passThrough : List String) (starts : List ℕ) :
    Extraction :=
  { s with passThrough := passThrough, starts := starts }

theorem Setting.apply_visited (t : Setting) (s : Extraction) (passThrough : List String)
    (starts : List ℕ) :
    t.apply (s.visited passThrough starts) = (t.apply s).visited passThrough starts := by
  cases t <;> rfl

theorem foldl_apply_visited (settings : List Setting) (s : Extraction)
    (passThrough passThrough' : List String) (starts starts' : List ℕ) :
    (settings.foldl Setting.apply (s.visited passThrough starts)).visited passThrough' starts' =
      (settings.foldl Setting.apply s).visited passThrough' starts' := by
  induction settings generalizing s with
  | nil => rfl
  | cons t settings ih =>
    rw [List.foldl_cons, List.foldl_cons, Setting.apply_visited, ih]

namespace Args

variable {Url : Type} (P : Platform Url)

theorem getD_front (pre : List ℕ) (span : ℕ) (later : List ℕ) :
    (pre ++ span :: later).getD pre.length 0 = span := by
  simp [List.getD]

theorem extractFrom_finished (fuel : ℕ) (front : List String) (spans : List ℕ) (s : Extraction) :
    extractFrom P front spans fuel front.length s = .ok s := by
  cases fuel with
  | zero => rfl
  | succ fuel =>
    have hnone : front[front.length]? = none := List.getElem?_eq_none (Nat.le_refl _)
    rw [extractFrom, hnone]

/-- A round of the pass. -/
theorem extractFrom_word (fuel : ℕ) (front : List String) (word : String) (rest : List String)
    (spans : List ℕ) (s : Extraction) :
    extractFrom P (front ++ word :: rest) spans (fuel + 1) front.length s =
      let s := s.visited s.passThrough (s.starts ++ [front.length])
      if word = "--" then .ok (s.visited (s.passThrough ++ word :: rest) s.starts)
      else
        let span := spans.getD front.length 0
        if span ≠ 0 then
          extractFrom P (front ++ word :: rest) spans fuel (front.length + span)
            (s.visited (s.passThrough ++ (word :: rest).take span) s.starts)
        else
          match splitLongValue word with
          | some (key, value) =>
            match extractInline P word key value s with
            | .error e => .error e
            | .ok s => extractFrom P (front ++ word :: rest) spans fuel (front.length + 1) s
          | none =>
            match extractSeparate P (front ++ word :: rest) front.length word s with
            | .error e => .error e
            | .ok (s, index) => extractFrom P (front ++ word :: rest) spans fuel index s := by
  rw [extractFrom, getElem?_front, List.drop_left]
  rfl

/-- Where every span is 1 the words are forwarded one by one. -/
theorem extractFrom_ones (fuel : ℕ) (front rest : List String) (pre : List ℕ) (s : Extraction)
    (hpre : pre.length = front.length) (hfuel : rest.length ≤ fuel) :
    ∃ more, (∀ i ∈ more, front.length ≤ i) ∧
      extractFrom P (front ++ rest) (pre ++ .replicate rest.length 1) fuel front.length s =
        .ok (s.visited (s.passThrough ++ rest) (s.starts ++ more)) := by
  induction fuel generalizing front rest pre s with
  | zero =>
    have hnil : rest = [] := List.length_eq_zero_iff.mp (Nat.le_zero.mp hfuel)
    subst hnil
    refine ⟨[], (fun i hi => by cases hi), ?_⟩
    rw [List.append_nil, extractFrom_finished]
    simp [Extraction.visited]
  | succ fuel ih =>
    cases rest with
    | nil =>
      refine ⟨[], (fun i hi => by cases hi), ?_⟩
      rw [List.append_nil, extractFrom_finished]
      simp [Extraction.visited]
    | cons word rest =>
      rw [extractFrom_word]
      by_cases hdash : word = "--"
      · exact ⟨[front.length], by simp, by simp [hdash, Extraction.visited]⟩
      · obtain ⟨more, hmore, hgo⟩ := ih (front ++ [word]) rest (pre ++ [1])
          (s.visited (s.passThrough ++ [word]) (s.starts ++ [front.length]))
          (by simp [hpre]) (Nat.le_of_succ_le_succ hfuel)
        refine ⟨front.length :: more, ?_, ?_⟩
        · intro i hi
          rcases List.mem_cons.mp hi with rfl | hi
          · exact Nat.le_refl _
          · have hle := hmore i hi
            simp only [List.length_append] at hle
            omega
        · simp only [List.append_assoc, List.singleton_append, List.length_append,
            List.length_singleton] at hgo
          simp only [hdash, if_false, List.length_cons, List.replicate_succ, ← hpre, getD_front]
          simpa [Extraction.visited, hpre] using hgo

/-- The end of a pass that has read `seg` from `position` on, starting from `s`. -/
def extractionOf (s : Extraction) (position : ℕ) (seg : Segmentation) (more : List ℕ)
    (settings : List Setting) : Extraction :=
  (settings.foldl Setting.apply s).visited (s.passThrough ++ seg.forwarded)
    (s.starts ++ seg.starts position ++ more)

theorem extractionOf_cons_wrapper (s : Extraction) (position : ℕ) (seg : Segmentation)
    (more : List ℕ) (option : WrapperOption) (value : Option String) (words : List String)
    (t : Setting) (settings : List Setting) :
    extractionOf (t.apply (s.visited s.passThrough (s.starts ++ [position])))
        (position + words.length) seg more settings =
      extractionOf s position (seg.cons (.wrapper option value words)) more (t :: settings) := by
  simp only [extractionOf, Setting.apply_visited, foldl_apply_visited, Segmentation.cons_starts,
    List.foldl_cons, Segmentation.cons_forwarded, Segment.upstreamWords, List.nil_append,
    Segment.words]
  simp [Extraction.visited]

theorem extractionOf_cons_upstream (s : Extraction) (position : ℕ) (seg : Segmentation)
    (more : List ℕ) (words : List String) (settings : List Setting) :
    extractionOf (s.visited (s.passThrough ++ words) (s.starts ++ [position]))
        (position + words.length) seg more settings =
      extractionOf s position (seg.cons (.upstream words)) more settings := by
  simp only [extractionOf, foldl_apply_visited, Segmentation.cons_starts,
    Segmentation.cons_forwarded, Segment.upstreamWords, Segment.words]
  simp [Extraction.visited]

section Step

variable {front : List String} {pre : List ℕ} (fuel : ℕ) (later : List ℕ) (s : Extraction)

theorem extractFrom_forward (hpre : pre.length = front.length) {word : String}
    (hdash : word ≠ "--") (rest : List String) {span : ℕ} (hspan : span ≠ 0) :
    extractFrom P (front ++ word :: rest) (pre ++ span :: later) (fuel + 1) front.length s =
      extractFrom P (front ++ word :: rest) (pre ++ span :: later) fuel (front.length + span)
        (s.visited (s.passThrough ++ (word :: rest).take span) (s.starts ++ [front.length])) := by
  have hhead : (pre ++ span :: later).getD front.length 0 = span := by
    rw [← hpre, getD_front]
  rw [extractFrom_word]
  simp only [hdash, if_false, hhead, ne_eq, hspan, not_false_eq_true, if_true]
  rfl

theorem extractFrom_inline (hpre : pre.length = front.length) {word : String}
    (hdash : word ≠ "--") {option : WrapperOption} {value : String}
    (hword : wrapperWord word = some (option, some value)) (rest : List String) :
    extractFrom P (front ++ word :: rest) (pre ++ 0 :: later) (fuel + 1) front.length s =
      parseSetting P option (some value) >>= fun t =>
        extractFrom P (front ++ word :: rest) (pre ++ 0 :: later) fuel (front.length + 1)
          (t.apply (s.visited s.passThrough (s.starts ++ [front.length]))) := by
  have hhead : (pre ++ 0 :: later).getD front.length 0 = 0 := by
    rw [← hpre, getD_front]
  rw [extractFrom_word]
  simp only [hdash, if_false, hhead, ne_eq, not_true, wrapperWord_inline hword, extractInline_eq]
  cases parseSetting P option (some value) <;> rfl

theorem extractFrom_separate (hpre : pre.length = front.length) {word : String}
    (hdash : word ≠ "--") {option : WrapperOption}
    (hword : wrapperWord word = some (option, none)) (rest : List String) :
    extractFrom P (front ++ word :: rest) (pre ++ 0 :: later) (fuel + 1) front.length s =
      parseSetting P option (if option.takesValue then rest.head? else none) >>= fun t =>
        extractFrom P (front ++ word :: rest) (pre ++ 0 :: later) fuel
          (front.length + if option.takesValue then 2 else 1)
          (t.apply (s.visited s.passThrough (s.starts ++ [front.length]))) := by
  have hhead : (pre ++ 0 :: later).getD front.length 0 = 0 := by
    rw [← hpre, getD_front]
  obtain ⟨hsplit, hname⟩ := wrapperWord_separate hword
  have hsep := extractSeparate_eq P option (front ++ word :: rest) front.length
  rw [getElem?_next, ← hname] at hsep
  rw [extractFrom_word]
  simp only [hdash, if_false, hhead, ne_eq, not_true, hsplit, hsep]
  cases htakes : option.takesValue with
  | false => simp [parseSetting, htakes, ok_bind, Extraction.visited]
  | true =>
    cases rest with
    | nil => simp [parseSetting, htakes, hname]; rfl
    | cons value rest =>
      simp only [List.head?_cons, if_true]
      cases parseSetting P option (some value) <;> rfl

end Step

section Extracts

variable {words : List String} {spans : List ℕ} {fuel position : ℕ} {s : Extraction}

/-- From `position` on, the pass forwards and sets what the segmentation `seg` says. -/
def Extracts (words : List String) (spans : List ℕ) (fuel position : ℕ) (s : Extraction)
    (seg : Segmentation) : Prop :=
  ∃ more, (∀ i ∈ more, position + seg.width < i) ∧
    extractFrom P words spans fuel position s =
      (parseSettings P seg.segments).map (extractionOf s position seg more)

theorem Extracts.wrapper {option : WrapperOption} {value : Option String} {own : List String}
    {seg : Segmentation}
    (hstep : extractFrom P words spans (fuel + 1) position s = parseSetting P option value >>=
      fun t => extractFrom P words spans fuel (position + own.length)
        (t.apply (s.visited s.passThrough (s.starts ++ [position]))))
    (hrest : ∀ s', Extracts P words spans fuel (position + own.length) s' seg) :
    Extracts P words spans (fuel + 1) position s (seg.cons (.wrapper option value own)) := by
  cases ht : parseSetting P option value with
  | error e =>
    refine ⟨[], (fun i hi => by cases hi), ?_⟩
    simp only [hstep, ht, Segmentation.cons, parseSettings]
    rfl
  | ok t =>
    obtain ⟨more, hmore, hgo⟩ :=
      hrest (t.apply (s.visited s.passThrough (s.starts ++ [position])))
    refine ⟨more, fun i hi => ?_, ?_⟩
    · have hlt := hmore i hi
      simp only [Segmentation.width, Segmentation.cons, List.flatMap_cons, List.length_append,
        Segment.words] at hlt ⊢
      omega
    · simp only [hstep, ht, ok_bind, hgo, Segmentation.cons, parseSettings]
      cases parseSettings P seg.segments with
      | error e => rfl
      | ok settings =>
        exact congrArg Except.ok
          (extractionOf_cons_wrapper s position seg more option value own t settings)

theorem Extracts.upstream {own : List String} {seg : Segmentation}
    (hstep : extractFrom P words spans (fuel + 1) position s =
      extractFrom P words spans fuel (position + own.length)
        (s.visited (s.passThrough ++ own) (s.starts ++ [position])))
    (hrest : ∀ s', Extracts P words spans fuel (position + own.length) s' seg) :
    Extracts P words spans (fuel + 1) position s (seg.cons (.upstream own)) := by
  obtain ⟨more, hmore, hgo⟩ := hrest (s.visited (s.passThrough ++ own) (s.starts ++ [position]))
  refine ⟨more, fun i hi => ?_, ?_⟩
  · have hlt := hmore i hi
    simp only [Segmentation.width, Segmentation.cons, List.flatMap_cons, List.length_append,
      Segment.words] at hlt ⊢
    omega
  · rw [hstep, hgo]
    refine congrArg (Except.map · (parseSettings P seg.segments)) ?_
    funext settings
    exact extractionOf_cons_upstream s position seg more own settings

theorem extracts_finished (front : List String) (spans : List ℕ) (fuel : ℕ) (s : Extraction) :
    Extracts P front spans fuel front.length s ⟨[], [], 1, .none⟩ := by
  refine ⟨[], (fun i hi => by cases hi), ?_⟩
  rw [extractFrom_finished]
  simp [parseSettings, Except.map, extractionOf, Extraction.visited, Segmentation.forwarded,
    Segmentation.starts, segmentStarts]

theorem extracts_dashes (front rest : List String) (spans : List ℕ) (fuel : ℕ)
    (s : Extraction) :
    Extracts P (front ++ "--" :: rest) spans (fuel + 1) front.length s
      ⟨[], "--" :: rest, 1, .none⟩ := by
  refine ⟨[], (fun i hi => by cases hi), ?_⟩
  rw [extractFrom_word, if_pos rfl]
  simp [parseSettings, Except.map, extractionOf, Extraction.visited, Segmentation.forwarded,
    Segmentation.starts, Segmentation.width, segmentStarts]

/-- Behind an option unknown upstream every word is forwarded on its own. -/
theorem extracts_unknown {front : List String} {pre : List ℕ} (hpre : pre.length = front.length)
    {word : String} (hdash : word ≠ "--") {rest : List String} {span : ℕ}
    (hspan : (word :: rest.take (span - 1)).length = span) (hfuel : rest.length ≤ fuel) :
    Extracts P (front ++ word :: rest) (pre ++ span :: .replicate rest.length 1) (fuel + 1)
      front.length s ⟨[], word :: rest, span, .none⟩ := by
  have hpos : span ≠ 0 := by
    rw [← hspan]
    simp
  have htake : (word :: rest).take span = word :: rest.take (span - 1) := by
    obtain ⟨n, rfl⟩ := Nat.exists_eq_succ_of_ne_zero hpos
    rfl
  have hle : (rest.drop (span - 1)).length ≤ fuel := by
    rw [List.length_drop]
    omega
  obtain ⟨more, hmore, hgo⟩ := extractFrom_ones P fuel (front ++ word :: rest.take (span - 1))
    (rest.drop (span - 1)) (pre ++ span :: .replicate (span - 1) 1)
    (s.visited (s.passThrough ++ word :: rest.take (span - 1)) (s.starts ++ [front.length]))
    (by
      simp only [List.length_append, List.length_cons, List.length_replicate, hpre]
      simp only [List.length_cons] at hspan
      omega) hle
  rw [List.length_append, hspan] at hgo hmore
  refine ⟨more, fun i hi => ?_, ?_⟩
  · have hge := hmore i hi
    simp only [Segmentation.width, List.flatMap_nil, List.length_nil]
    omega
  · have hwords : front ++ word :: rest =
        front ++ word :: rest.take (span - 1) ++ rest.drop (span - 1) := by
      simp
    rw [extractFrom_forward P _ _ s hpre hdash rest hpos, htake, hwords, replicate_operand hspan]
    simp only [List.append_assoc, List.cons_append] at hgo ⊢
    refine hgo.trans ?_
    simp [parseSettings, Except.map, extractionOf, Extraction.visited, Segmentation.forwarded,
      Segmentation.starts, Segmentation.width, segmentStarts]

end Extracts

section SecondPass

variable {B : ArgBoundary}

/-- From any position on, the pass extracts what the segmentation of `suffix` says. -/
def SecondPassReads (suffix : List String) (seg : Segmentation) : Prop :=
  ∀ (fuel : ℕ) (front : List String) (pre : List ℕ) (s : Extraction),
    pre.length = front.length → suffix.length ≤ fuel →
    Extracts P (front ++ suffix) (pre ++ seg.spans) fuel front.length s seg

/-- The pass goes on behind a segment. -/
theorem SecondPassReads.advance {later words front : List String} {pre : List ℕ} {fuel : ℕ}
    {seg : Segmentation} (h : SecondPassReads P later seg) (hpre : pre.length = front.length)
    (hfuel : later.length ≤ fuel) (segment : Segment) (hwords : segment.words ++ later = words)
    (hspans : segment.spans.length = segment.words.length) :
    ∀ s, Extracts P (front ++ words) (pre ++ (seg.cons segment).spans) fuel
      (front.length + segment.words.length) s seg := by
  intro s
  have hgo := h fuel (front ++ segment.words) (pre ++ segment.spans) s (by simp [hpre, hspans])
    hfuel
  rw [List.length_append] at hgo
  rwa [← hwords, Segmentation.cons_spans, ← List.append_assoc, ← List.append_assoc]

theorem secondPassReads {suffix : List String} {seg : Segmentation} (h : Reads B suffix seg)
    (hinfo : seg.information = .none) : SecondPassReads P suffix seg := by
  induction h with
  | finished =>
    intro fuel front pre s _ _
    rw [List.append_nil]
    exact extracts_finished P front _ fuel s
  | dashes rest =>
    intro fuel front pre s _ hfuel
    obtain ⟨fuel, rfl, -⟩ := exists_fuel hfuel
    exact extracts_dashes P front rest _ fuel s
  | inline word rest option value seg hdash hword _ ih =>
    intro fuel front pre s hpre hfuel
    obtain ⟨fuel, rfl, hle⟩ := exists_fuel hfuel
    have hrest := (ih hinfo).advance P hpre hle (.wrapper option (some value) [word]) rfl rfl
    exact .wrapper P (extractFrom_inline P _ _ s hpre hdash hword rest) hrest
  | missing word option hdash hword htakes =>
    intro fuel front pre s hpre hfuel
    obtain ⟨fuel, rfl, hle⟩ := exists_fuel hfuel
    have hstep := extractFrom_separate P fuel [] s hpre hdash hword []
    have hmissing : parseSetting P option none = .error s!"{word} requires a value" := by
      obtain ⟨-, hname⟩ := wrapperWord_separate hword
      simp [parseSetting, htakes, hname]
    simp only [htakes, if_true, List.head?_nil, hmissing] at hstep
    refine ⟨[], (fun i hi => by cases hi), hstep.trans ?_⟩
    simp only [parseSettings, hmissing]
    rfl
  | separate word value rest option seg hdash hword htakes _ ih =>
    intro fuel front pre s hpre hfuel
    obtain ⟨fuel, rfl, hle⟩ := exists_fuel hfuel
    have hrest := (ih hinfo).advance P hpre (Nat.le_of_succ_le hle)
      (.wrapper option (some value) [word, value]) rfl rfl
    have hstep := extractFrom_separate P fuel (1 :: seg.spans) s hpre hdash hword
      (value :: rest)
    simp only [htakes, if_true, List.head?_cons] at hstep
    exact .wrapper P hstep hrest
  | flag word rest option seg hdash hword htakes _ ih =>
    intro fuel front pre s hpre hfuel
    obtain ⟨fuel, rfl, hle⟩ := exists_fuel hfuel
    have hrest := (ih hinfo).advance P hpre hle (.wrapper option none [word]) rfl rfl
    have hstep := extractFrom_separate P fuel seg.spans s hpre hdash hword rest
    simp only [htakes, Bool.false_eq_true, if_false] at hstep
    exact .wrapper P hstep hrest
  | information word rest span info hdash hword hb hpos =>
    exact absurd hinfo (Information.ofInfo_ne_none info)
  | unknown word rest span info hdash hword hb _ =>
    intro fuel front pre s hpre hfuel
    obtain ⟨fuel, rfl, hle⟩ := exists_fuel hfuel
    have hspan := argBoundary_span hb
    exact extracts_unknown P hpre hdash hspan hle
  | upstream word rest span seg hdash hword hb _ ih =>
    intro fuel front pre s hpre hfuel
    obtain ⟨fuel, rfl, hle⟩ := exists_fuel hfuel
    have hspan := argBoundary_span hb
    have hlater : (rest.drop (span - 1)).length ≤ fuel := by
      rw [List.length_drop]
      omega
    have hwords : word :: rest.take (span - 1) ++ rest.drop (span - 1) = word :: rest := by simp
    have hrest := (ih hinfo).advance P hpre hlater (.upstream (word :: rest.take (span - 1)))
      hwords (by simp [Segment.words, Segment.spans])
    have hpos : span ≠ 0 := by
      rw [← hspan]
      simp
    have htake : (word :: rest).take span = word :: rest.take (span - 1) := by
      obtain ⟨n, rfl⟩ := Nat.exists_eq_succ_of_ne_zero hpos
      rfl
    have hstep := extractFrom_forward P fuel (.replicate (span - 1) 1 ++ seg.spans) s hpre hdash
      rest hpos
    rw [htake] at hstep
    have hspans : pre ++ (seg.cons (.upstream (word :: rest.take (span - 1)))).spans =
        pre ++ span :: (.replicate (span - 1) 1 ++ seg.spans) := by
      rw [Segmentation.cons_spans, Segment.spans, hspan, List.cons_append]
    rw [← hspans] at hstep
    refine .upstream P ?_ hrest
    rw [hspan]
    exact hstep

theorem extractFrom_eq (B : ArgBoundary) (fuel : ℕ) (front suffix : List String) (pre : List ℕ)
    (seg : Segmentation) (s : Extraction) (hseg : segmentation B suffix = .ok seg)
    (hinfo : seg.information = .none) (hpre : pre.length = front.length)
    (hfuel : suffix.length ≤ fuel) :
    ∃ more, (∀ i ∈ more, front.length + seg.width < i) ∧
      extractFrom P (front ++ suffix) (pre ++ seg.spans) fuel front.length s =
        (parseSettings P seg.segments).map (extractionOf s front.length seg more) :=
  secondPassReads P (reads_of_segmentation hseg) hinfo fuel front pre s hpre hfuel

end SecondPass

end Args

end Iperf3Rs
