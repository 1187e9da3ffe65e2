import Iperf3Rs.ArgDeterminacy
import Iperf3Rs.ArgSpelling

/-! The two spellings of a wrapper option, `--option=value` and `--option value`, come to the same.
Only the look-ahead at the word after an upstream option tells them apart: it refuses a word with
a NUL, and an inline value is part of its word. -/

namespace Iperf3Rs

/-- The words `front` are whole segments if `next` follows them, so that a pass looks for an
option at `next`. -/
inductive Leads (B : ArgBoundary) (next : String) : List String → List Segment → Prop
  | start : Leads B next [] []
  | inline (word : String) (rest : List String) (option : WrapperOption) (value : String)
      (segments : List Segment) (hdash : word ≠ "--")
      (hword : wrapperWord word = some (option, some value)) (hrest : Leads B next rest segments) :
      Leads B next (word :: rest) (.wrapper option (some value) [word] :: segments)
  | separate (word value : String) (rest : List String) (option : WrapperOption)
      (segments : List Segment) (hdash : word ≠ "--")
      (hword : wrapperWord word = some (option, none)) (htakes : option.takesValue = true)
      (hrest : Leads B next rest segments) :
      Leads B next (word :: value :: rest)
        (.wrapper option (some value) [word, value] :: segments)
  | flag (word : String) (rest : List String) (option : WrapperOption) (segments : List Segment)
      (hdash : word ≠ "--") (hword : wrapperWord word = some (option, none))
      (htakes : option.takesValue = false) (hrest : Leads B next rest segments) :
      Leads B next (word :: rest) (.wrapper option none [word] :: segments)
  | upstream (word : String) (operand rest : List String) (segments : List Segment)
      (hdash : word ≠ "--") (hword : wrapperWord word = none)
      (hb : Args.argBoundary B word (operand ++ rest ++ [next]).head? =
        .ok (operand.length + 1, 0)) (hrest : Leads B next rest segments) :
      Leads B next (word :: (operand ++ rest)) (.upstream (word :: operand) :: segments)

/-- Behind `front`, a pass looks for an option at `word`. -/
def OptionPosition (B : ArgBoundary) (front : List String) (word : String) : Prop :=
  ∃ segments, Leads B word front segments

def Segmentation.after (segments : List Segment) (seg : Segmentation) : Segmentation :=
  { seg with segments := segments ++ seg.segments }

theorem exceptMap_map {ε α β γ : Type} (x : Except ε α) (f : α → β) (g : β → γ) :
    (x.map f).map g = x.map (g ∘ f) := by
  cases x <;> rfl

section Position

variable {B : ArgBoundary} {next : String} {front : List String} {segments : List Segment}

theorem Leads.segmentation_append (h : Leads B next front segments) (later : List String) :
    segmentation B (front ++ next :: later) =
      (segmentation B (next :: later)).map (.after segments) := by
  induction h with
  | start =>
    cases hseg : segmentation B (next :: later) with
    | error e => rw [List.nil_append, hseg, Except.map]
    | ok seg => rw [List.nil_append, hseg, Except.map]; rfl
  | inline word rest option value segments hdash hword hrest ih =>
    rw [List.cons_append, segmentation]
    simp only [hdash, if_false, hword, ih, exceptMap_map]
    rfl
  | separate word value rest option segments hdash hword htakes hrest ih =>
    rw [List.cons_append, List.cons_append, segmentation]
    simp only [hdash, if_false, hword, htakes, if_true, ih, exceptMap_map]
    rfl
  | flag word rest option segments hdash hword htakes hrest ih =>
    rw [List.cons_append, segmentation]
    simp only [hdash, if_false, hword, htakes, Bool.false_eq_true, ih, exceptMap_map]
    rfl
  | upstream word operand rest segments hdash hword hb hrest ih =>
    have hhead : (operand ++ rest ++ next :: later).head? = (operand ++ rest ++ [next]).head? := by
      cases operand ++ rest <;> rfl
    have htake : (operand ++ rest ++ next :: later).take operand.length = operand := by
      rw [List.append_assoc, List.take_left]
    have hdrop : (operand ++ rest ++ next :: later).drop operand.length =
        rest ++ next :: later := by
      rw [List.append_assoc, List.drop_left]
    rw [List.cons_append, segmentation]
    simp only [hdash, if_false, hword, hhead, hb, Int.lt_irrefl, Nat.add_sub_cancel, htake, hdrop,
      ih, exceptMap_map]
    rfl

/-- Another word without a NUL is in the same position. -/
theorem Leads.respell {B : NativeBoundary} (h : Leads B next front segments) {next' : String}
    (hnul : Args.hasNul next' = false) : Leads B next' front segments := by
  induction h with
  | start => exact .start
  | inline word rest option value segments hdash hword hrest ih =>
    exact .inline word rest option value segments hdash hword ih
  | separate word value rest option segments hdash hword htakes hrest ih =>
    exact .separate word value rest option segments hdash hword htakes ih
  | flag word rest option segments hdash hword htakes hrest ih =>
    exact .flag word rest option segments hdash hword htakes ih
  | upstream word operand rest segments hdash hword hb hrest ih =>
    refine .upstream word operand rest segments hdash hword ?_ ih
    cases hwords : operand ++ rest with
    | cons w words =>
      rw [hwords] at hb
      exact hb
    | nil =>
      obtain ⟨rfl, rfl⟩ := List.append_eq_nil_iff.mp hwords
      exact argBoundary_alone hnul (fun hnone => by cases hnone) hb

end Position

section Starts

variable {B : NativeBoundary}

theorem Segmentation.le_of_mem_starts {seg : Segmentation} {position i : ℕ}
    (h : i ∈ seg.starts position) : position ≤ i := by
  rcases List.mem_append.mp h with h | h
  · exact (le_of_mem_segmentStarts h).1
  · split at h
    · rw [List.mem_singleton.mp h]
      exact Nat.le_add_right _ _
    · cases h

/-- A start that is not that of the first segment lies behind it. -/
theorem Segmentation.start_behind {segment : Segment} {seg : Segmentation} {position : ℕ}
    {front rest words : List String} {word : String} (hsegment : segment.words ++ rest = words)
    (hwords : words = front ++ [word])
    (h : position + front.length ∈ (seg.cons segment).starts position) :
    front = [] ∨ ∃ behind, front = segment.words ++ behind ∧ rest = behind ++ [word] ∧
      position + segment.words.length + behind.length ∈
        seg.starts (position + segment.words.length) := by
  rw [Segmentation.cons_starts] at h
  rcases List.mem_cons.mp h with he | h
  · exact .inl (List.eq_nil_of_length_eq_zero (by omega))
  · have hle := le_of_mem_starts h
    rw [← hsegment] at hwords
    refine .inr ?_
    obtain ⟨behind, rfl, hrest⟩ | ⟨behind, hown, hword⟩ := List.append_eq_append_iff.mp hwords
    · refine ⟨behind, rfl, hrest, ?_⟩
      rwa [List.length_append, ← Nat.add_assoc] at h
    · have hlen := congrArg List.length hown
      rw [List.length_append] at hlen
      obtain rfl : behind = [] := List.eq_nil_of_length_eq_zero (by omega)
      rw [List.append_nil] at hown
      subst hown
      exact ⟨[], by simp, by simpa using hword.symm, h⟩

theorem exists_leads_start (B : ArgBoundary) (word : String) {front : List String}
    (h : front.length = 0) : ∃ segments, Leads B word front segments := by
  rw [List.eq_nil_of_length_eq_zero h]
  exact ⟨[], .start⟩

theorem Reads.leads {words : List String} {seg : Segmentation} (h : Reads B words seg)
    {front : List String} {word : String} {position : ℕ} (hwords : words = front ++ [word])
    (hstart : position + front.length ∈ seg.starts position) :
    ∃ segments, Leads B word front segments := by
  induction h generalizing front position with
  | finished => simp at hwords
  | dashes rest =>
    have hzero : front.length = 0 := by
      simpa [Segmentation.starts, segmentStarts, Segmentation.width] using hstart
    exact exists_leads_start B word hzero
  | missing w =>
    have hzero : front.length = 0 := by
      simpa [Segmentation.starts, segmentStarts] using hstart
    exact exists_leads_start B word hzero
  | information w rest span info hdash hword hb hpos =>
    have hinfo : Information.ofInfo info ≠ .none := by
      have hle := Args.argBoundary_info hb
      have hcases : info = 1 ∨ info = 2 := by omega
      rcases hcases with rfl | rfl <;> decide
    have hzero : front.length = 0 := by
      simpa [Segmentation.starts, segmentStarts, hinfo] using hstart
    exact exists_leads_start B word hzero
  | unknown w rest span info hdash hword hb hneg =>
    have hzero : front.length = 0 := by
      simpa [Segmentation.starts, segmentStarts, Segmentation.width] using hstart
    exact exists_leads_start B word hzero
  | inline w rest option value seg hdash hword hrest ih =>
    rcases Segmentation.start_behind rfl hwords hstart with hnil | ⟨behind, rfl, hrest, hbehind⟩
    · exact exists_leads_start B word (by rw [hnil]; rfl)
    · obtain ⟨segments, hleads⟩ := ih hrest hbehind
      exact ⟨_, .inline w behind option value segments hdash hword hleads⟩
  | separate w value rest option seg hdash hword htakes hrest ih =>
    rcases Segmentation.start_behind rfl hwords hstart with hnil | ⟨behind, rfl, hrest, hbehind⟩
    · exact exists_leads_start B word (by rw [hnil]; rfl)
    · obtain ⟨segments, hleads⟩ := ih hrest hbehind
      exact ⟨_, .separate w value behind option segments hdash hword htakes hleads⟩
  | flag w rest option seg hdash hword htakes hrest ih =>
    rcases Segmentation.start_behind rfl hwords hstart with hnil | ⟨behind, rfl, hrest, hbehind⟩
    · exact exists_leads_start B word (by rw [hnil]; rfl)
    · obtain ⟨segments, hleads⟩ := ih hrest hbehind
      exact ⟨_, .flag w behind option segments hdash hword htakes hleads⟩
  | upstream w rest span seg hdash hword hb hrest ih =>
    have hown : w :: rest.take (span - 1) ++ rest.drop (span - 1) = w :: rest := by simp
    rcases Segmentation.start_behind hown hwords hstart with
      hnil | ⟨behind, rfl, hrest, hbehind⟩
    · exact exists_leads_start B word (by rw [hnil]; rfl)
    · obtain ⟨segments, hleads⟩ := ih hrest hbehind
      have hlen := Args.argBoundary_span hb
      have hspan : (rest.take (span - 1)).length + 1 = span := by simpa using hlen
      have hb' : Args.argBoundary B w (rest.take (span - 1) ++ behind ++ [word]).head? =
          .ok ((rest.take (span - 1)).length + 1, 0) := by
        rw [List.append_assoc, ← hrest, List.take_append_drop, hspan]
        exact hb
      exact ⟨_, .upstream w (rest.take (span - 1)) behind segments hdash hword hb' hleads⟩

theorem mem_segmentStarts_append (segments later : List Segment) (segment : Segment)
    (position : ℕ) :
    position + (segments.flatMap Segment.words).length ∈
      segmentStarts position (segments ++ segment :: later) := by
  induction segments generalizing position with
  | nil => exact List.mem_cons_self
  | cons first segments ih =>
    rw [List.flatMap_cons, List.length_append, ← Nat.add_assoc]
    exact List.mem_cons_of_mem _ (ih (position + first.words.length))

theorem segmentation_wrapperWord {word : String} (h : wrapperWord word ≠ none) :
    ∃ segment, segmentation B [word] = .ok ⟨[segment], [], 1, .none⟩ := by
  have hdash := ne_dashes_of_wrapperWord h
  have hnil : segmentation B [] = .ok ⟨[], [], 1, .none⟩ := by rw [segmentation]
  obtain ⟨⟨option, value⟩, hword⟩ := Option.ne_none_iff_exists'.mp h
  cases value with
  | some value =>
    refine ⟨.wrapper option (some value) [word], ?_⟩
    rw [segmentation]
    simp only [hdash, if_false, hword, hnil]
    rfl
  | none =>
    refine ⟨.wrapper option none [word], ?_⟩
    rw [segmentation]
    by_cases htakes : option.takesValue = true
    · simp only [hdash, if_false, hword, htakes, if_true]
    · simp only [hdash, if_false, hword, htakes, hnil]
      rfl

theorem Leads.words {next : String} {front : List String} {segments : List Segment}
    (h : Leads B next front segments) : segments.flatMap Segment.words = front := by
  induction h with
  | start => rfl
  | inline | separate | flag | upstream => simp [Segment.words, *]

/-- An option position is one at which the first pass looks for an option. -/
theorem optionPosition_iff {front : List String} {word : String} (hword : wrapperWord word ≠ none) :
    OptionPosition B front word ↔ ∃ boundaries,
      Args.argumentBoundaries B (front ++ [word]) = .ok boundaries ∧
        front.length ∈ boundaries.starts := by
  rw [Args.argumentBoundaries_eq]
  constructor
  · rintro ⟨segments, h⟩
    obtain ⟨segment, hseg⟩ := segmentation_wrapperWord (B := B) hword
    have hlen := mem_segmentStarts_append segments [] segment 0
    rw [h.words, Nat.zero_add] at hlen
    rw [h.segmentation_append [], hseg]
    exact ⟨_, rfl, List.mem_append_right _ (List.mem_append_left _ hlen)⟩
  · rintro ⟨boundaries, hok, hmem⟩
    obtain ⟨seg, hseg, rfl⟩ := exceptMap_eq_ok.mp hok
    have hstart : 0 + front.length ∈ seg.starts 0 := by
      simpa [Args.boundariesOf] using hmem
    exact (reads_of_segmentation hseg).leads rfl hstart

end Starts

/-- `--option=value`. -/
def WrapperOption.inline (option : WrapperOption) (value : String) : String :=
  option.name ++ .ofList ('=' :: value.toList)

section Spellings

variable {Url : Type} {B : NativeBoundary} {P : Platform Url}

theorem segmentation_inline (option : WrapperOption) (value : String) (later : List String) :
    segmentation B (option.inline value :: later) =
      (segmentation B later).map
        (.cons (.wrapper option (some value) [option.inline value])) := by
  have hword : wrapperWord (option.inline value) = some (option, some value) :=
    wrapperWord_spelled option value
  have hdash := ne_dashes_of_wrapperWord (by rw [hword]; simp)
  rw [segmentation]
  simp only [hdash, if_false, hword]

theorem segmentation_separate {option : WrapperOption} (htakes : option.takesValue = true)
    (value : String) (later : List String) :
    segmentation B (option.name :: value :: later) =
      (segmentation B later).map (.cons (.wrapper option (some value) [option.name, value])) := by
  have hword := wrapperWord_name option
  have hdash := ne_dashes_of_wrapperWord (by rw [hword]; simp)
  rw [segmentation]
  simp only [hdash, if_false, hword, htakes, if_true]

theorem segmentation_flag {option : WrapperOption} (htakes : option.takesValue = false)
    (later : List String) :
    segmentation B (option.name :: later) =
      (segmentation B later).map (.cons (.wrapper option none [option.name])) := by
  have hword := wrapperWord_name option
  have hdash := ne_dashes_of_wrapperWord (by rw [hword]; simp)
  rw [segmentation]
  simp only [hdash, if_false, hword, htakes, Bool.false_eq_true]

/-- Two segmentations that say the same, however the values are written. -/
structure SameReading (P : Platform Url) (seg seg' : Segmentation) : Prop where
  settings : parseSettings P seg.segments = parseSettings P seg'.segments
  forwarded : seg.forwarded = seg'.forwarded
  information : seg.information = seg'.information

theorem SameReading.cons_wrapper {option : WrapperOption} {value value' : Option String}
    (h : parseSetting P option value = parseSetting P option value') (words words' : List String)
    (seg : Segmentation) :
    SameReading P (seg.cons (.wrapper option value words))
      (seg.cons (.wrapper option value' words')) where
  settings := by simp only [Segmentation.cons, parseSettings, h]
  forwarded := rfl
  information := rfl

theorem SameReading.after {seg seg' : Segmentation} (h : SameReading P seg seg')
    (segments : List Segment) :
    SameReading P (seg.after segments) (seg'.after segments) where
  settings := by
    induction segments with
    | nil => exact h.settings
    | cons segment segments ih =>
      simp only [Segmentation.after, List.cons_append] at ih ⊢
      cases segment with
      | upstream words => simpa only [parseSettings] using ih
      | wrapper option value words => simp only [parseSettings, ih]
  forwarded := by
    have hforwarded := h.forwarded
    simp only [Segmentation.forwarded] at hforwarded
    simp only [Segmentation.forwarded, Segmentation.after, List.flatMap_append,
      List.append_assoc, hforwarded]
  information := h.information

theorem extract_sameReading (program : String) (env : Env) {rest rest' : List String}
    {x : Except String Segmentation} {f f' : Segmentation → Segmentation}
    (hseg : segmentation B rest = x.map f) (hseg' : segmentation B rest' = x.map f')
    (hsame : ∀ seg, SameReading P (f seg) (f' seg)) :
    Args.extractAppOptionsWithEnv B P (program :: rest) env =
      Args.extractAppOptionsWithEnv B P (program :: rest') env := by
  cases x with
  | error e => rw [extract_of_error B P program rest env hseg,
      extract_of_error B P program rest' env hseg']
  | ok seg =>
    obtain ⟨hsettings, hforwarded, hinformation⟩ := hsame seg
    by_cases hinfo : (f seg).information = .none
    · rw [extract_of_segmentation B P program rest env hseg hinfo,
        extract_of_segmentation B P program rest' env hseg' (hinformation ▸ hinfo), hsettings,
        hforwarded]
    · rw [extract_of_information B P program rest env hseg hinfo,
        extract_of_information B P program rest' env hseg' (hinformation ▸ hinfo), hinformation]

theorem extract_respelled {front own later later' : List String} {next next' : String}
    {segments : List Segment} {segment segment' : Segment} (h : Leads B next front segments)
    (h' : Leads B next' front segments)
    (hseg : segmentation B (next :: later) = (segmentation B own).map (.cons segment))
    (hseg' : segmentation B (next' :: later') = (segmentation B own).map (.cons segment'))
    (hsame : ∀ seg : Segmentation, SameReading P (seg.cons segment) (seg.cons segment'))
    (program : String) (env : Env) :
    Args.extractAppOptionsWithEnv B P (program :: (front ++ next :: later)) env =
      Args.extractAppOptionsWithEnv B P (program :: (front ++ next' :: later')) env := by
  have hrest := h.segmentation_append later
  have hrest' := h'.segmentation_append later'
  rw [hseg, exceptMap_map] at hrest
  rw [hseg', exceptMap_map] at hrest'
  exact extract_sameReading program env hrest hrest' fun seg => (hsame seg).after segments

theorem hasNul_name (option : WrapperOption) : Args.hasNul option.name = false := by
  cases option <;> decide

theorem hasNul_inline (option : WrapperOption) (value : String) :
    Args.hasNul (option.inline value) = Args.hasNul value := by
  have hname := hasNul_name option
  simp only [Args.hasNul] at hname ⊢
  simp only [WrapperOption.inline, String.toList_append, String.toList_ofList,
    List.contains_eq_any_beq, List.any_append, List.any_cons] at hname ⊢
  rw [hname]
  simp

/-- A value without a NUL can be written either way in the same position. -/
theorem OptionPosition.spellings {front : List String} {option : WrapperOption} {value : String}
    (h : OptionPosition B front (option.inline value) ∨
      Args.hasNul value = false ∧ OptionPosition B front option.name) :
    ∃ segments, Leads B (option.inline value) front segments ∧
      Leads B option.name front segments := by
  rcases h with ⟨segments, h⟩ | ⟨hnul, segments, h⟩
  · exact ⟨segments, h, h.respell (hasNul_name option)⟩
  · exact ⟨segments, h.respell (by rw [hasNul_inline, hnul]), h⟩

end Spellings

/-- An option in option position can be written in one word or in two, and the flag with or
without its value. A value with a NUL is looked at in one word, but not in two. -/
theorem wrapper_option_spellings {Url : Type} (B : NativeBoundary) (P : Platform Url)
    (program : String) (front later : List String) (env : Env) :
    (∀ (option : WrapperOption) (value : String), option.takesValue = true →
      OptionPosition B front (option.inline value) ∨
        Args.hasNul value = false ∧ OptionPosition B front option.name →
      Args.extractAppOptionsWithEnv B P (program :: (front ++ option.inline value :: later)) env =
        Args.extractAppOptionsWithEnv B P (program :: (front ++ option.name :: value :: later))
          env) ∧
    (OptionPosition B front "--push.delete-on-exit" ∨
        OptionPosition B front "--push.delete-on-exit=true" →
      Args.extractAppOptionsWithEnv B P
          (program :: (front ++ "--push.delete-on-exit" :: later)) env =
        Args.extractAppOptionsWithEnv B P
          (program :: (front ++ "--push.delete-on-exit=true" :: later)) env) := by
  constructor
  · intro option value htakes h
    obtain ⟨segments, hinline, hseparate⟩ := OptionPosition.spellings h
    exact extract_respelled hinline hseparate (segmentation_inline option value later)
      (segmentation_separate htakes value later)
      (fun seg => .cons_wrapper rfl _ _ seg) program env
  · intro h
    have hinline : WrapperOption.pushDeleteOnExit.inline "true" = "--push.delete-on-exit=true" := by
      decide
    have hposition : OptionPosition B front (WrapperOption.pushDeleteOnExit.inline "true") ∨
        Args.hasNul "true" = false ∧ OptionPosition B front WrapperOption.pushDeleteOnExit.name := by
      rw [hinline]
      exact h.symm.imp_right fun h => ⟨by decide, h⟩
    obtain ⟨segments, hvalue, hflag⟩ := OptionPosition.spellings hposition
    rw [← hinline]
    refine extract_respelled hflag hvalue (segmentation_flag rfl later)
      (segmentation_inline .pushDeleteOnExit "true" later) (fun seg => ?_) program env
    have hparse : parseSetting P .pushDeleteOnExit none =
        parseSetting P .pushDeleteOnExit (some "true") := by
      have htrue : Args.parseBoolOption "--push.delete-on-exit" "true" = .ok true := by decide
      change _ = (Args.parseBoolOption "--push.delete-on-exit" "true").map Setting.pushDeleteOnExit
      rw [htrue]
      rfl
    exact .cons_wrapper hparse _ _ seg

theorem wrapper_option_spellings_client :
    Args.extractAppOptionsWithEnv clientBoundary httpPlatform
        ("iperf3-rs" :: (["-c", "a"] ++ WrapperOption.metricsFile.inline "--" :: ["-u"]))
        (fun _ => .ok none) =
      Args.extractAppOptionsWithEnv clientBoundary httpPlatform
        ("iperf3-rs" :: (["-c", "a"] ++ "--metrics.file" :: "--" :: ["-u"])) (fun _ => .ok none) ∧
    Args.extractAppOptionsWithEnv clientBoundary httpPlatform
        ("iperf3-rs" :: (["-c", "a"] ++ "--push.delete-on-exit" :: [])) (fun _ => .ok none) =
      Args.extractAppOptionsWithEnv clientBoundary httpPlatform
        ("iperf3-rs" :: (["-c", "a"] ++ "--push.delete-on-exit=true" :: [])) (fun _ => .ok none) := by
  have hposition : ∀ word, OptionPosition clientBoundary ["-c", "a"] word :=
    fun word => ⟨_, .upstream "-c" ["a"] [] _ (by decide) (by decide) rfl .start⟩
  exact ⟨(wrapper_option_spellings clientBoundary httpPlatform "iperf3-rs" ["-c", "a"] ["-u"]
      (fun _ => .ok none)).1 .metricsFile "--" rfl (.inl (hposition _)),
    (wrapper_option_spellings clientBoundary httpPlatform "iperf3-rs" ["-c", "a"] []
      (fun _ => .ok none)).2 (.inl (hposition _))⟩

/-- Behind an upstream option the look-ahead refuses the NUL of an inline value. -/
theorem wrapper_option_spellings_nul :
    OptionPosition clientBoundary ["--push.url", "localhost:9091", "-u"] "--push.job" ∧
    (∃ app, Args.extractAppOptionsWithEnv clientBoundary httpPlatform
      ("iperf3-rs" :: (["--push.url", "localhost:9091", "-u"] ++ "--push.job" :: "a\x00" :: []))
      (fun _ => .ok none) = .ok (app, ["iperf3-rs", "-u"])) ∧
    Args.extractAppOptionsWithEnv clientBoundary httpPlatform
      ("iperf3-rs" :: (["--push.url", "localhost:9091", "-u"] ++
        WrapperOption.pushJob.inline "a\x00" :: []))
      (fun _ => .ok none) = .error "argument contains NUL" := by
  refine ⟨⟨_, .separate "--push.url" "localhost:9091" ["-u"] .pushUrl _ (by decide) (by decide) rfl
    (.upstream "-u" [] [] _ (by decide) (by decide) rfl .start)⟩, ⟨_, rfl⟩, rfl⟩

end Iperf3Rs
