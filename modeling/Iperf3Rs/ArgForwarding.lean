import Iperf3Rs.ArgSecondPass

/-! The argv handed to libiperf is the command line without its wrapper segments. Both passes
look for an option at the starts of the segments and nowhere inside one. -/

namespace Iperf3Rs

theorem Reads.conserved {B : ArgBoundary} {words : List String} {seg : Segmentation}
    (h : Reads B words seg) : seg.segments.flatMap Segment.words ++ seg.tail = words := by
  induction h with
  | finished | dashes | missing | unknown => rfl
  | information word rest span => simp [Segment.words]
  | inline word rest option value seg hdash hword hrest ih =>
    simpa [Segmentation.cons, Segment.words] using ih
  | separate word value rest option seg hdash hword htakes hrest ih =>
    simpa [Segmentation.cons, Segment.words] using ih
  | flag word rest option seg hdash hword htakes hrest ih =>
    simpa [Segmentation.cons, Segment.words] using ih
  | upstream word rest span seg hdash hword hb hrest ih =>
    simp only [Segmentation.cons, List.flatMap_cons, Segment.words, List.append_assoc, ih]
    simp

/-- The tail that is left alone begins with `--` or with an option unknown upstream. -/
theorem Reads.tail {B : ArgBoundary} {words : List String} {seg : Segmentation}
    (h : Reads B words seg) (hinfo : seg.information = .none) :
    seg.tail = [] ∨ (∃ rest, seg.tail = "--" :: rest) ∨
      ∃ word rest info, seg.tail = word :: rest ∧ info < 0 ∧
        Args.argBoundary B word rest.head? = .ok (seg.tailSpan, info) := by
  induction h with
  | finished => exact .inl rfl
  | missing => exact .inl rfl
  | dashes rest => exact .inr (.inl ⟨rest, rfl⟩)
  | unknown word rest span info hdash hword hb hneg =>
    exact .inr (.inr ⟨word, rest, info, rfl, hneg, hb⟩)
  | information word rest span info hdash hword hb hpos =>
    exact absurd hinfo (Information.ofInfo_ne_none info)
  | inline word rest option value seg hdash hword hrest ih => exact ih hinfo
  | separate word value rest option seg hdash hword htakes hrest ih => exact ih hinfo
  | flag word rest option seg hdash hword htakes hrest ih => exact ih hinfo
  | upstream word rest span seg hdash hword hb hrest ih => exact ih hinfo

theorem Reads.information_ne_other {B : NativeBoundary} {words : List String} {seg : Segmentation}
    (h : Reads B words seg) : seg.information ≠ .other := by
  induction h with
  | finished | missing | dashes | unknown => exact nofun
  | information word rest span info hdash hword hb hpos =>
    have hle := Args.argBoundary_info hb
    have hcases : info = 1 ∨ info = 2 := by omega
    rcases hcases with rfl | rfl <;> exact nofun
  | inline word rest option value seg hdash hword hrest ih => exact ih
  | separate word value rest option seg hdash hword htakes hrest ih => exact ih
  | flag word rest option seg hdash hword htakes hrest ih => exact ih
  | upstream word rest span seg hdash hword hb hrest ih => exact ih

namespace Args

/-- What `argument_boundaries` is told about the word at `index`, where it asks. -/
def askedInfo (B : ArgBoundary) (args : List String) (index : ℕ) : Option ℤ :=
  match args[index]? with
  | none => none
  | some word =>
    if word = "--" ∨ (wrapperValue (optionKey word).1).isSome then none
    else (argBoundary B word args[index + 1]?).toOption.map Prod.snd

/-- No word that the first pass visits asks for help or for the version. -/
def WithoutRequest (B : ArgBoundary) (args : List String) : Prop :=
  ∀ boundaries, argumentBoundaries B args = .ok boundaries →
    ∀ index ∈ boundaries.starts, ∀ info, askedInfo B args index = some info → info ≤ 0

/-- Behind `front` the pass visits a word that asks for help or for the version. -/
def Requests (B : ArgBoundary) (front words : List String) (seg : Segmentation) : Prop :=
  ∃ index ∈ seg.starts front.length, ∃ info,
    askedInfo B (front ++ words) index = some info ∧ 0 < info

theorem Requests.cons {B : ArgBoundary} {front later words : List String} {seg : Segmentation}
    (segment : Segment) (h : Requests B (front ++ segment.words) later seg)
    (hwords : segment.words ++ later = words) : Requests B front words (seg.cons segment) := by
  obtain ⟨index, hmem, info, hasked, hpos⟩ := h
  rw [List.length_append] at hmem
  rw [List.append_assoc, hwords] at hasked
  refine ⟨index, ?_, info, hasked, hpos⟩
  rw [Segmentation.cons_starts]
  exact List.mem_cons_of_mem _ hmem

theorem Requests.of_cons {B : ArgBoundary} {front later words : List String} {seg : Segmentation}
    (segment : Segment) (h : Requests B front words (seg.cons segment))
    (hwords : segment.words ++ later = words)
    (hhead : ∀ info, askedInfo B (front ++ words) front.length = some info → info ≤ 0) :
    Requests B (front ++ segment.words) later seg := by
  obtain ⟨index, hmem, info, hasked, hpos⟩ := h
  rw [Segmentation.cons_starts] at hmem
  rcases List.mem_cons.mp hmem with rfl | hmem
  · have hle := hhead info hasked
    omega
  · refine ⟨index, ?_, info, ?_, hpos⟩
    · rwa [List.length_append]
    · rwa [List.append_assoc, hwords]

theorem askedInfo_wrapper (B : ArgBoundary) {word : String} {option : WrapperOption}
    {value : Option String} (hword : wrapperWord word = some (option, value))
    (front rest : List String) : askedInfo B (front ++ word :: rest) front.length = none := by
  simp only [askedInfo, getElem?_front, optionKey_of_wrapperWord hword, wrapperValue_eq,
    wrapperOption_name, Option.map_some, Option.isSome_some, or_true, if_true]

theorem askedInfo_upstream {B : ArgBoundary} {word : String} {rest : List String} {span : ℕ}
    {info : ℤ} (hdash : word ≠ "--") (hword : wrapperWord word = none)
    (hb : argBoundary B word rest.head? = .ok (span, info)) (front : List String) :
    askedInfo B (front ++ word :: rest) front.length = some info := by
  simp only [askedInfo, getElem?_front, getElem?_next, hdash, wrapperValue_of_wrapperWord hword,
    Option.isSome_none, Bool.false_eq_true, or_self, if_false, hb]
  rfl

theorem not_requests_of_none {B : ArgBoundary} {words : List String} {seg : Segmentation}
    (h : Reads B words seg) (hinfo : seg.information = .none) (front : List String) :
    ¬ Requests B front words seg := by
  induction h generalizing front with
  | finished =>
    rintro ⟨index, hmem, -⟩
    cases hmem
  | dashes rest =>
    rintro ⟨index, hmem, info, hasked, -⟩
    obtain rfl : index = front.length := by
      simpa [Segmentation.starts, segmentStarts, Segmentation.width] using hmem
    simp [askedInfo] at hasked
  | missing word option hdash hword htakes =>
    rintro ⟨index, hmem, info, hasked, -⟩
    obtain rfl : index = front.length := by
      simpa [Segmentation.starts, segmentStarts] using hmem
    rw [askedInfo_wrapper B hword] at hasked
    cases hasked
  | unknown word rest span info hdash hword hb hneg =>
    rintro ⟨index, hmem, info', hasked, hpos⟩
    obtain rfl : index = front.length := by
      simpa [Segmentation.starts, segmentStarts, Segmentation.width] using hmem
    rw [askedInfo_upstream hdash hword hb, Option.some.injEq] at hasked
    omega
  | information word rest span info => exact absurd hinfo (Information.ofInfo_ne_none info)
  | inline word rest option value seg hdash hword hrest ih =>
    refine fun h => ih hinfo _ (h.of_cons _ rfl fun info hasked => ?_)
    cases (askedInfo_wrapper B hword front rest).symm.trans hasked
  | separate word value rest option seg hdash hword htakes hrest ih =>
    refine fun h => ih hinfo _ (h.of_cons _ rfl fun info hasked => ?_)
    cases (askedInfo_wrapper B hword front (value :: rest)).symm.trans hasked
  | flag word rest option seg hdash hword htakes hrest ih =>
    refine fun h => ih hinfo _ (h.of_cons _ rfl fun info hasked => ?_)
    cases (askedInfo_wrapper B hword front rest).symm.trans hasked
  | upstream word rest span seg hdash hword hb hrest ih =>
    have hwords : (Segment.upstream (word :: rest.take (span - 1))).words ++
        rest.drop (span - 1) = word :: rest := by simp [Segment.words]
    refine fun h => ih hinfo _ (h.of_cons _ hwords fun info hasked => ?_)
    rw [askedInfo_upstream hdash hword hb, Option.some.injEq] at hasked
    omega

theorem requests_of_information {B : ArgBoundary} {words : List String} {seg : Segmentation}
    (h : Reads B words seg) (hinfo : seg.information ≠ .none) (front : List String) :
    Requests B front words seg := by
  induction h generalizing front with
  | finished | missing | dashes | unknown => exact absurd rfl hinfo
  | information word rest span info hdash hword hb hpos =>
    refine ⟨front.length, ?_, info, askedInfo_upstream hdash hword hb front, hpos⟩
    exact List.mem_append_left _ (List.mem_cons_self ..)
  | inline word rest option value seg hdash hword hrest ih => exact (ih hinfo _).cons _ rfl
  | separate word value rest option seg hdash hword htakes hrest ih =>
    exact (ih hinfo _).cons _ rfl
  | flag word rest option seg hdash hword htakes hrest ih => exact (ih hinfo _).cons _ rfl
  | upstream word rest span seg hdash hword hb hrest ih =>
    refine (ih hinfo _).cons (.upstream (word :: rest.take (span - 1))) ?_
    simp [Segment.words]

theorem withoutRequest_iff {B : ArgBoundary} {args : List String} {seg : Segmentation}
    (hseg : segmentation B args = .ok seg) :
    WithoutRequest B args ↔ seg.information = .none := by
  have hreads := reads_of_segmentation hseg
  have hboundaries : argumentBoundaries B args = .ok (boundariesOf [] [] 0 seg) := by
    rw [argumentBoundaries_eq, hseg]
    rfl
  constructor
  · intro h
    by_contra hinfo
    obtain ⟨index, hmem, info, hasked, hpos⟩ := requests_of_information hreads hinfo []
    have hle := h _ hboundaries index hmem info hasked
    omega
  · intro hinfo boundaries hb index hmem info hasked
    rw [hboundaries] at hb
    cases hb
    by_contra hle
    exact not_requests_of_none hreads hinfo [] ⟨index, hmem, info, hasked, by omega⟩

end Args

theorem le_of_mem_segmentStarts {segments : List Segment} {position i : ℕ}
    (h : i ∈ segmentStarts position segments) :
    position ≤ i ∧ i < position + (segments.flatMap Segment.words).length + 1 := by
  induction segments generalizing position with
  | nil => cases h
  | cons segment segments ih =>
    rw [segmentStarts] at h
    simp only [List.flatMap_cons, List.length_append]
    rcases List.mem_cons.mp h with rfl | h
    · omega
    · have hh := ih h
      omega

/-- No pass looks for an option at an operand. -/
theorem operand_not_mem_starts {seg : Segmentation} {before after : List Segment}
    {segment : Segment} (hseg : seg.segments = before ++ segment :: after) {k : ℕ} (hk : 0 < k)
    (hlt : k < segment.words.length) (position : ℕ) :
    position + (before.flatMap Segment.words).length + k ∉ seg.starts position := by
  have hwidth : (before.flatMap Segment.words).length + segment.words.length ≤ seg.width := by
    simp only [Segmentation.width, hseg, List.flatMap_append, List.flatMap_cons,
      List.length_append]
    omega
  simp only [Segmentation.starts, List.mem_append, not_or]
  constructor
  · rw [hseg]
    clear hseg hwidth
    induction before generalizing position with
    | nil =>
      intro hmem
      simp only [List.flatMap_nil, List.length_nil, List.nil_append, segmentStarts] at hmem
      rcases List.mem_cons.mp hmem with he | hmem
      · omega
      · have hh := le_of_mem_segmentStarts hmem
        omega
    | cons first before ih =>
      intro hmem
      simp only [List.flatMap_cons, List.length_append, List.cons_append, segmentStarts] at hmem
      rcases List.mem_cons.mp hmem with he | hmem
      · omega
      · refine ih (position + first.words.length) ?_
        have he : position + (first.words.length + (before.flatMap Segment.words).length) + k =
            position + first.words.length + (before.flatMap Segment.words).length + k := by omega
        exact he ▸ hmem
  · intro hmem
    split at hmem
    · have he := List.mem_singleton.mp hmem
      omega
    · cases hmem

variable {Url : Type}

/-- How a run of `extract_app_options_with_env` on `program :: rest` comes to its argv. -/
structure ForwardedAs (B : ArgBoundary) (P : Platform Url) (program : String)
    (rest forwarded : List String) (seg : Segmentation)
    (boundaries : Args.Boundaries) (s : Extraction) : Prop where
  segmented : segmentation B rest = .ok seg
  conserved : seg.segments.flatMap Segment.words ++ seg.tail = rest
  tail : seg.tail = [] ∨ (∃ later, seg.tail = "--" :: later) ∨
    ∃ word later info, seg.tail = word :: later ∧ info < 0 ∧
      Args.argBoundary B word later.head? = .ok (seg.tailSpan, info)
  forwarded_eq : forwarded =
    program :: (seg.segments.flatMap Segment.upstreamWords ++ seg.tail)
  firstPass : Args.argumentBoundaries B rest = .ok boundaries
  secondPass : ∃ pushLabels metricsLabels, Args.extractFrom P rest boundaries.spans rest.length 0
    (.start program pushLabels metricsLabels) = .ok s
  firstStarts : boundaries.starts = seg.starts 0
  secondStarts : ∃ more, s.starts = boundaries.starts ++ more ∧ ∀ i ∈ more, seg.width < i
  operands : ∀ before segment after, seg.segments = before ++ segment :: after →
    ∀ k, 0 < k → k < segment.words.length →
      (before.flatMap Segment.words).length + k ∉ boundaries.starts ∧
        (before.flatMap Segment.words).length + k ∉ s.starts

theorem extract_of_information (B : NativeBoundary) (P : Platform Url) (program : String)
    (rest : List String) (env : Env) {seg : Segmentation} (hseg : segmentation B rest = .ok seg)
    (hinfo : seg.information ≠ .none) :
    Args.extractAppOptionsWithEnv B P (program :: rest) env =
      .ok (Args.informationOptions (seg.information == .help) (seg.information == .version),
        [program]) := by
  have hother := (reads_of_segmentation hseg).information_ne_other
  have hshow : (seg.information == .help || seg.information == .version) = true := by
    cases hi : seg.information <;> simp_all
  simp only [Args.extractAppOptionsWithEnv, Args.argumentBoundaries_eq, hseg, Except.map,
    ok_bind, Args.boundariesOf, hshow, if_true]

section Extract

variable (B : ArgBoundary) (P : Platform Url) (program : String) (rest : List String) (env : Env)

theorem extract_of_error {e : String} (hseg : segmentation B rest = .error e) :
    Args.extractAppOptionsWithEnv B P (program :: rest) env = .error e := by
  simp only [Args.extractAppOptionsWithEnv, Args.argumentBoundaries_eq, hseg]
  rfl

/-- Without a request for information, the result is that of the settings in order. -/
theorem extract_of_segmentation {seg : Segmentation} (hseg : segmentation B rest = .ok seg)
    (hinfo : seg.information = .none) :
    Args.extractAppOptionsWithEnv B P (program :: rest) env = (do
      let pushLabels ← Args.envLabels env "IPERF3_PUSH_LABELS" true
      let metricsLabels ← Args.envLabels env "IPERF3_METRICS_LABELS" false
      let settings ← parseSettings P seg.segments
      Args.resolveOptions P env
        ((settings.foldl Setting.apply (.start program pushLabels metricsLabels)).visited
          (program :: seg.forwarded) [])) := by
  have hpass := fun s => Args.extractFrom_eq P B rest.length [] rest [] seg s hseg hinfo rfl
    (Nat.le_refl _)
  simp only [List.nil_append, List.length_nil] at hpass
  simp only [Args.extractAppOptionsWithEnv, Args.argumentBoundaries_eq, hseg, Except.map,
    ok_bind, Args.boundariesOf, hinfo, List.nil_append]
  cases Args.envLabels env "IPERF3_PUSH_LABELS" true with
  | error e => rfl
  | ok pushLabels =>
    cases Args.envLabels env "IPERF3_METRICS_LABELS" false with
    | error e => rfl
    | ok metricsLabels =>
      obtain ⟨more, -, hgo⟩ := hpass (.start program pushLabels metricsLabels)
      change (Args.extractFrom P rest seg.spans rest.length 0 _ >>= _) = _
      rw [hgo]
      cases parseSettings P seg.segments <;> rfl

end Extract

theorem resolveOptions_eq_ok {P : Platform Url} {env : Env} {s : Extraction}
    {app : AppOptions Url} {forwarded : List String} :
    Args.resolveOptions P env s = .ok (app, forwarded) ↔
      ∃ saw, Args.mergeEnvironment P env s = .ok (app, saw) ∧
        Args.checkOptions s app saw = .ok () ∧ forwarded = s.passThrough := by
  simp only [Args.resolveOptions, bind_eq_ok, Except.ok.injEq, Prod.mk.injEq]
  constructor
  · rintro ⟨⟨_, saw⟩, hmerge, _, hcheck, rfl, rfl⟩
    exact ⟨saw, hmerge, hcheck, rfl⟩
  · rintro ⟨saw, hmerge, hcheck, rfl⟩
    exact ⟨(app, saw), hmerge, (), hcheck, rfl, rfl⟩

/-- A run that ends well without a request for information has read its words to the end. -/
theorem segmentation_of_extract {B : NativeBoundary} {P : Platform Url} {args : List String}
    {env : Env} {app : AppOptions Url} {forwarded : List String}
    (h : Args.extractAppOptionsWithEnv B P args env = .ok (app, forwarded))
    (hhelp : app.showHelp = false) (hversion : app.showVersion = false) :
    ∃ program rest seg, args = program :: rest ∧ segmentation B rest = .ok seg ∧
      seg.information = .none := by
  cases args with
  | nil => cases h
  | cons program rest =>
    cases hseg : segmentation B rest with
    | error e =>
      rw [extract_of_error B P program rest env hseg] at h
      cases h
    | ok seg =>
      refine ⟨program, rest, seg, rfl, hseg, ?_⟩
      by_contra hne
      rw [extract_of_information B P program rest env hseg hne] at h
      cases h
      have hother := (reads_of_segmentation hseg).information_ne_other
      cases hi : seg.information <;> simp_all [Args.informationOptions]

/-- As `iperf3rs_arg_boundary` answers, the options say whether there was a request. -/
theorem withoutRequest_of_extract {B : NativeBoundary} {P : Platform Url} {program : String}
    {rest : List String} {env : Env} {app : AppOptions Url} {forwarded : List String}
    (h : Args.extractAppOptionsWithEnv B P (program :: rest) env = .ok (app, forwarded))
    (hhelp : app.showHelp = false) (hversion : app.showVersion = false) :
    Args.WithoutRequest B rest := by
  obtain ⟨_, _, seg, hargs, hseg, hinfo⟩ := segmentation_of_extract h hhelp hversion
  cases hargs
  exact (Args.withoutRequest_iff hseg).mpr hinfo

/-- The argv that is forwarded, whatever `arg_boundary` answers, if none of its answers in the first
pass is a request for help or for the version. -/
theorem forwarded_argv (B : ArgBoundary) (P : Platform Url) (program : String)
    (rest : List String) (env : Env) (app : AppOptions Url) (forwarded : List String)
    (h : Args.extractAppOptionsWithEnv B P (program :: rest) env = .ok (app, forwarded))
    (hrequest : Args.WithoutRequest B rest) :
    ∃ seg boundaries s, ForwardedAs B P program rest forwarded seg boundaries s := by
  obtain ⟨seg, hseg⟩ : ∃ seg, segmentation B rest = .ok seg := by
    cases hseg : segmentation B rest with
    | error e =>
      rw [extract_of_error B P program rest env hseg] at h
      cases h
    | ok seg => exact ⟨seg, rfl⟩
  have hinfo := (Args.withoutRequest_iff hseg).mp hrequest
  have hreads := reads_of_segmentation hseg
  rw [extract_of_segmentation B P program rest env hseg hinfo] at h
  obtain ⟨pushLabels, -, metricsLabels, -, settings, hsettings, hresolve⟩ :
      ∃ pushLabels, Args.envLabels env "IPERF3_PUSH_LABELS" true = .ok pushLabels ∧
      ∃ metricsLabels, Args.envLabels env "IPERF3_METRICS_LABELS" false = .ok metricsLabels ∧
      ∃ settings, parseSettings P seg.segments = .ok settings ∧
        Args.resolveOptions P env ((settings.foldl Setting.apply
          (.start program pushLabels metricsLabels)).visited
            (program :: seg.forwarded) []) = .ok (app, forwarded) := by
    simpa only [bind_eq_ok, exists_and_left] using h
  obtain ⟨-, -, -, rfl⟩ := resolveOptions_eq_ok.mp hresolve
  obtain ⟨more, hmore, hgo⟩ := Args.extractFrom_eq P B rest.length [] rest [] seg
    (.start program pushLabels metricsLabels) hseg hinfo rfl (Nat.le_refl _)
  simp only [List.nil_append, List.length_nil, hsettings, Nat.zero_add] at hgo hmore
  refine ⟨seg, Args.boundariesOf [] [] 0 seg, _, hseg, hreads.conserved,
    hreads.tail hinfo, rfl, ?_, ⟨pushLabels, metricsLabels, hgo⟩, rfl, ⟨more, rfl, hmore⟩, ?_⟩
  · rw [Args.argumentBoundaries_eq, hseg]
    rfl
  · intro before segment after hsplit k hk hlt
    have hfirst := operand_not_mem_starts hsplit hk hlt 0
    rw [Nat.zero_add] at hfirst
    refine ⟨hfirst, fun hmem => ?_⟩
    rcases List.mem_append.mp hmem with hmem | hmem
    · exact hfirst (by simpa [Extraction.start] using hmem)
    · have hwidth := hmore _ hmem
      simp only [Segmentation.width, hsplit, List.flatMap_append, List.flatMap_cons,
        List.length_append] at hwidth
      omega

def clientBoundary : NativeBoundary where
  classify word next :=
    if word = "-c" then (if next.isSome then (2, 0) else (1, -1))
    else if word = "--help" then (1, 1)
    else (1, 0)
  span word next := by
    by_cases hc : word = "-c"
    · cases next <;> simp [hc]
    · by_cases hh : word = "--help" <;> simp [hc, hh]
  info word next := by
    by_cases hc : word = "-c"
    · cases next <;> simp [hc]
    · by_cases hh : word = "--help" <;> simp [hc, hh]
  alone word next := by
    by_cases hc : word = "-c" <;> simp [hc]

def httpPlatform : Platform String where
  parseUrl url := .ok url
  scheme _ := "http"
  hostStr _ := some "localhost"
  checkedDeadline := checkedDeadline (10 ^ 12) 0

theorem forwarded_argv_operands : ∃ seg boundaries s,
    ForwardedAs clientBoundary httpPlatform "iperf3-rs"
      ["--push.url", "localhost:9091", "-c", "--help", "--push.job=--help", "--", "--push.url"]
      ["iperf3-rs", "-c", "--help", "--", "--push.url"] seg boundaries s := by
  obtain ⟨app, hok, hhelp, hversion⟩ : ∃ app, Args.extractAppOptionsWithEnv clientBoundary
      httpPlatform ["iperf3-rs", "--push.url", "localhost:9091", "-c", "--help",
        "--push.job=--help", "--", "--push.url"] (fun _ => .ok none) =
          .ok (app, ["iperf3-rs", "-c", "--help", "--", "--push.url"]) ∧
      app.showHelp = false ∧ app.showVersion = false := ⟨_, rfl, rfl, rfl⟩
  exact forwarded_argv clientBoundary httpPlatform "iperf3-rs" _ _ app _ hok
    (withoutRequest_of_extract hok hhelp hversion)

end Iperf3Rs
