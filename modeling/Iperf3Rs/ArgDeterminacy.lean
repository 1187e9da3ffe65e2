import Iperf3Rs.ArgValues

/-! What the result of the option parser depends on: the upstream words, the raw values of each
wrapper option, and the environment variables that are not replaced on the command line. Which of
several errors is reported is left out. -/

namespace Iperf3Rs

section Locality

variable {B : NativeBoundary}

/-- The words libiperf gets to see, up to a request for help or for the version. -/
def Segmentation.upstreamWords (seg : Segmentation) : List String :=
  seg.segments.flatMap Segment.upstreamWords ++
    match seg.information with
    | .none => seg.tail
    | _ => []

theorem Segmentation.upstreamWords_upstream (seg : Segmentation) (words : List String) :
    (seg.cons (.upstream words)).upstreamWords = words ++ seg.upstreamWords := by
  simp only [upstreamWords, cons, List.flatMap_cons, Segment.upstreamWords, List.append_assoc]

def Segment.isUpstream : Segment → Bool
  | .wrapper _ _ _ => false
  | .upstream _ => true

/-- What is left of a segmentation when the wrapper segments are taken out. -/
def Segmentation.unwrapped (seg : Segmentation) : Segmentation where
  segments := seg.segments.filter Segment.isUpstream
  tail := match seg.information with
    | .none => seg.tail
    | _ => []
  tailSpan := seg.tailSpan
  information := seg.information

theorem hasNul_of_argBoundary {word : String} {next : Option String} {result : ℕ × ℤ}
    (h : Args.argBoundary B word next = .ok result) : Args.hasNul word = false := by
  simp only [Args.argBoundary, Bool.or_eq_true] at h
  split at h
  · cases h
  · next hnul =>
    rw [not_or, Bool.not_eq_true] at hnul
    exact hnul.1

/-- The pass has looked at the first upstream word, and so found no NUL in it. -/
theorem Reads.head_hasNul {words : List String} {seg : Segmentation} (h : Reads B words seg) :
    seg.upstreamWords.head?.any Args.hasNul = false := by
  induction h with
  | finished | missing => rfl
  | dashes rest => exact (by decide : Args.hasNul "--" = false)
  | inline word rest option value seg hdash hword hrest ih => exact ih
  | separate word value rest option seg hdash hword htakes hrest ih => exact ih
  | flag word rest option seg hdash hword htakes hrest ih => exact ih
  | information word rest span info hdash hword hb hpos => exact hasNul_of_argBoundary hb
  | unknown word rest span info hdash hword hb hneg => exact hasNul_of_argBoundary hb
  | upstream word rest span seg hdash hword hb hrest ih => exact hasNul_of_argBoundary hb

theorem argBoundary_alone {word : String} {next other : Option String} {info : ℤ}
    (hother : other.any Args.hasNul = false) (hnone : next = none → other = none)
    (h : Args.argBoundary B word next = .ok (1, info)) :
    Args.argBoundary B word other = .ok (1, info) := by
  simp only [Args.argBoundary, Bool.or_eq_true] at h
  split at h
  · cases h
  · next hnul =>
    rw [not_or] at hnul
    simp only [Args.argBoundary, hother, Bool.or_false, hnul.1]
    cases next with
    | none =>
      rw [hnone rfl]
      exact h
    | some next =>
      have hone : (B.classify word (some next)).1 = 1 := by rw [Except.ok.inj h]
      rw [B.alone word next hone other]
      exact h

theorem argBoundary_own {word : String} {rest later : List String} {span : ℕ} {info : ℤ}
    (hb : Args.argBoundary B word rest.head? = .ok (span, info))
    (hnul : later.head?.any Args.hasNul = false) (hnil : rest.drop (span - 1) = [] → later = []) :
    Args.argBoundary B word (rest.take (span - 1) ++ later).head? = .ok (span, info) := by
  have hlen := Args.argBoundary_span hb
  by_cases hone : span = 1
  · subst hone
    refine argBoundary_alone hnul (fun hnone => ?_) hb
    · rw [List.head?_eq_none_iff] at hnone
      subst hnone
      rw [hnil rfl]
      rfl
  · cases rest with
    | nil =>
      simp only [List.take_nil, List.length_singleton] at hlen
      omega
    | cons operand rest =>
      have hk : span - 1 = span - 2 + 1 := by
        simp only [List.length_cons, List.length_take] at hlen
        omega
      rw [hk, List.take_succ_cons]
      exact hb

/-- The upstream words alone are read in the same way. -/
theorem Reads.alone {words : List String} {seg : Segmentation} (h : Reads B words seg) :
    Reads B seg.upstreamWords seg.unwrapped := by
  induction h with
  | finished => exact .finished
  | dashes rest => exact .dashes rest
  | missing => exact .finished
  | inline word rest option value seg hdash hword hrest ih => exact ih
  | separate word value rest option seg hdash hword htakes hrest ih => exact ih
  | flag word rest option seg hdash hword htakes hrest ih => exact ih
  | unknown word rest span info hdash hword hb hneg =>
    exact .unknown word rest span info hdash hword hb hneg
  | information word rest span info hdash hword hb hpos =>
    have hle := Args.argBoundary_info hb
    have hcases : info = 1 ∨ info = 2 := by omega
    have hown : Args.argBoundary B word (rest.take (span - 1) ++ []).head? = .ok (span, info) :=
      argBoundary_own hb rfl (fun _ => rfl)
    rw [List.append_nil] at hown
    have hreads := Reads.information word (rest.take (span - 1)) span info hdash hword hown hpos
    rw [List.take_take, Nat.min_self, List.drop_eq_nil_of_le (List.length_take_le _ _)] at hreads
    have hwords : Segmentation.upstreamWords ⟨[.upstream (word :: rest.take (span - 1))],
        rest.drop (span - 1), 1, .ofInfo info⟩ = word :: rest.take (span - 1) := by
      rcases hcases with rfl | rfl <;> simp [Segmentation.upstreamWords, Segment.upstreamWords,
        Information.ofInfo]
    rw [hwords]
    rcases hcases with rfl | rfl <;> exact hreads
  | upstream word rest span seg hdash hword hb hrest ih =>
    have hown := argBoundary_own hb hrest.head_hasNul
      (fun hnil => by
        rw [hnil] at hrest
        cases hrest
        rfl)
    have htake : (rest.take (span - 1) ++ seg.upstreamWords).take (span - 1) =
        rest.take (span - 1) ∧
        (rest.take (span - 1) ++ seg.upstreamWords).drop (span - 1) = seg.upstreamWords := by
      have hlen := Args.argBoundary_span hb
      simp only [List.length_cons] at hlen
      exact ⟨List.take_left' (by omega), List.drop_left' (by omega)⟩
    have hgo := Reads.upstream word (rest.take (span - 1) ++ seg.upstreamWords) span
      seg.unwrapped hdash hword hown (by rw [htake.2]; exact ih)
    rw [htake.1] at hgo
    rw [Segmentation.upstreamWords_upstream]
    exact hgo

theorem segmentation_of_noNul (B : ArgBoundary) {words : List String}
    (hnul : ∀ word ∈ words, Args.hasNul word = false) : ∃ seg, segmentation B words = .ok seg := by
  induction words using segmentation.induct B with
  | case1 => exact ⟨_, by rw [segmentation]⟩
  | case2 rest => exact ⟨_, by rw [segmentation, if_pos rfl]⟩
  | case3 word rest hdash option value hword ih =>
    obtain ⟨seg, hseg⟩ := ih fun w hw => hnul w (List.mem_cons_of_mem _ hw)
    exact ⟨_, segmentation_of_reads
      (.inline word rest option value seg hdash hword (reads_of_segmentation hseg))⟩
  | case4 word hdash option hword htakes =>
    exact ⟨_, segmentation_of_reads (.missing word option hdash hword htakes)⟩
  | case5 word hdash option hword htakes value rest ih =>
    obtain ⟨seg, hseg⟩ := ih fun w hw => hnul w (by simp [hw])
    exact ⟨_, segmentation_of_reads
      (.separate word value rest option seg hdash hword htakes (reads_of_segmentation hseg))⟩
  | case6 word rest hdash option hword htakes ih =>
    obtain ⟨seg, hseg⟩ := ih fun w hw => hnul w (List.mem_cons_of_mem _ hw)
    exact ⟨_, segmentation_of_reads (.flag word rest option seg hdash hword
      (Bool.eq_false_iff.mpr htakes) (reads_of_segmentation hseg))⟩
  | case7 word rest hdash hword e hb =>
    have hnext : rest.head?.any Args.hasNul = false := by
      cases rest with
      | nil => rfl
      | cons next rest => exact hnul next (by simp)
    simp [Args.argBoundary, hnul word (by simp), hnext] at hb
  | case8 word rest hdash hword span info hb hpos =>
    exact ⟨_, segmentation_of_reads (.information word rest span info hdash hword hb hpos)⟩
  | case9 word rest hdash hword span info hb hpos hneg =>
    exact ⟨_, segmentation_of_reads (.unknown word rest span info hdash hword hb hneg)⟩
  | case10 word rest hdash hword span info hb later hpos hneg =>
    rename_i ih
    obtain ⟨seg, hseg⟩ := ih fun w hw => hnul w (List.mem_cons_of_mem _ (List.mem_of_mem_drop hw))
    obtain rfl : info = 0 := by omega
    exact ⟨_, segmentation_of_reads
      (.upstream word rest span seg hdash hword hb (reads_of_segmentation hseg))⟩

theorem information_eq {words words' : List String} {seg seg' : Segmentation}
    (h : Reads B words seg) (h' : Reads B words' seg')
    (hwords : seg.upstreamWords = seg'.upstreamWords) : seg.information = seg'.information := by
  have heq := segmentation_of_reads h'.alone
  rw [← hwords, segmentation_of_reads h.alone, Except.ok.injEq] at heq
  have hinfo := congrArg Segmentation.information heq
  exact hinfo

end Locality

section Environment

variable {Url : Type} {P : Platform Url} {env env' : Env}

theorem envDefault_congr {α : Type} {cli : Option α} {key : String}
    (parse : String → String → Except String α)
    (h : cli = none → (env key).toOption = (env' key).toOption) :
    (Args.envDefault cli key env parse).toOption =
      (Args.envDefault cli key env' parse).toOption := by
  cases cli with
  | some value => rfl
  | none =>
    have hkey := h rfl
    simp only [Args.envDefault]
    cases he : env key with
    | error e => cases he' : env' key <;> simp_all [Except.toOption]
    | ok given => cases he' : env' key <;> simp_all [Except.toOption]

theorem envLabels_congr {key : String} (reserveJob : Bool)
    (h : (env key).toOption = (env' key).toOption) :
    (Args.envLabels env key reserveJob).toOption = (Args.envLabels env' key reserveJob).toOption := by
  simp only [Args.envLabels]
  cases he : env key with
  | error e => cases he' : env' key <;> simp_all [Except.toOption]
  | ok given => cases he' : env' key <;> simp_all [Except.toOption]

theorem mergeEnvironment_congr {s : Extraction}
    (h : ∀ option, option.additive = false → s.lookup option = none →
      (env option.envKey).toOption = (env' option.envKey).toOption) :
    (Args.mergeEnvironment P env s).toOption = (Args.mergeEnvironment P env' s).toOption := by
  have hkey : ∀ {α : Type} (option : WrapperOption) (key : String) (cli : Option α)
      (ctor : α → Setting) (parse : String → String → Except String α), option.additive = false →
      option.envKey = key → s.lookup option = cli.map ctor →
      (Args.envDefault cli key env parse).toOption = (Args.envDefault cli key env' parse).toOption := by
    rintro α option key cli ctor parse hadd rfl hlookup
    refine envDefault_congr parse fun hnone => h option hadd ?_
    rw [hlookup, hnone, Option.map_none]
  have htimeout := hkey .pushTimeout "IPERF3_PUSH_TIMEOUT" s.pushTimeout .pushTimeout
    (Args.parseDurationOption P) rfl rfl rfl
  have hretries := hkey .pushRetries "IPERF3_PUSH_RETRIES" s.pushRetries .pushRetries
    Args.parseRetries rfl rfl rfl
  have huserAgent := hkey .pushUserAgent "IPERF3_PUSH_USER_AGENT" s.pushUserAgent .pushUserAgent
    Args.parseUserAgent rfl rfl rfl
  have hpre := hkey .metricsPrefix "IPERF3_METRICS_PREFIX" s.metricsPrefix .metricsPrefix
    Args.parseMetricPrefix rfl rfl rfl
  have hinterval := hkey .pushInterval "IPERF3_PUSH_INTERVAL" s.pushInterval .pushInterval
    (Args.parseDurationOption P) rfl rfl rfl
  have hdelete := hkey .pushDeleteOnExit "IPERF3_PUSH_DELETE_ON_EXIT" s.pushDeleteOnExit .pushDeleteOnExit
    Args.parseBoolOption rfl rfl rfl
  have hformat := hkey .metricsFormat "IPERF3_METRICS_FORMAT" s.metricsFormat .metricsFormat
    Args.parseMetricsFormat rfl rfl rfl
  have hurl := hkey .pushUrl "IPERF3_PUSH_URL" s.pushUrl .pushUrl
    (fun _ raw => .ok raw) rfl rfl rfl
  have hjob := hkey .pushJob "IPERF3_PUSH_JOB" s.pushJob .pushJob
    (fun _ raw => .ok raw) rfl rfl rfl
  have hfile := hkey .metricsFile "IPERF3_METRICS_FILE" s.metricsFile .metricsFile
    (fun _ raw => .ok raw) rfl rfl rfl
  simp only [Args.mergeEnvironment, toOption_bind, htimeout, hretries, huserAgent, hpre,
    hinterval, hdelete, hformat, hurl, hjob, hfile]

theorem resolveOptions_congr {s : Extraction}
    (h : ∀ option, option.additive = false → s.lookup option = none →
      (env option.envKey).toOption = (env' option.envKey).toOption) :
    (Args.resolveOptions P env s).toOption = (Args.resolveOptions P env' s).toOption := by
  simp only [Args.resolveOptions, toOption_bind, mergeEnvironment_congr h]

end Environment

section Extract

variable {Url : Type} {B : NativeBoundary} {P : Platform Url} {program : String}

/-- The options whose environment variable is looked at. -/
def Segmentation.Effective (seg : Segmentation) (option : WrapperOption) : Prop :=
  seg.information = .none ∧ (option.additive = true ∨ values option seg.segments = [])

theorem lookup_eq_none_iff {segments : List Segment} {ts : List Setting}
    (hts : parseSettings P segments = .ok ts) {option : WrapperOption}
    (hadd : option.additive = false) (pushLabels metricsLabels : List (String × String)) :
    (ts.foldl Setting.apply (.start program pushLabels metricsLabels)).lookup option = none ↔
      values option segments = [] := by
  rw [Extraction.lookup_foldl hadd]
  have hparses := parses_of_parseSettings hts option
  rcases hparses.last with ⟨hraw, hlast⟩ | ⟨value, t, hraw, hlast, -⟩
  · rw [hlast]
    simpa using hraw
  · rw [hlast]
    constructor
    · intro h
      cases h
    · intro h
      rw [h] at hraw
      cases hraw

theorem ofKey_eq_of_values_eq {segments segments' : List Segment} {ts ts' : List Setting}
    (hts : parseSettings P segments = .ok ts) (hts' : parseSettings P segments' = .ok ts')
    (hvalues : ∀ option, values option segments = values option segments')
    (option : WrapperOption) :
    KeyedFold.ofKey Setting.option option ts = KeyedFold.ofKey Setting.option option ts' := by
  have hparses := parses_of_parseSettings hts option
  rw [hvalues option] at hparses
  exact hparses.unique (parses_of_parseSettings hts' option)

theorem parseSettings_error {segments : List Segment} {option : WrapperOption}
    {value : Option String} (hmem : value ∈ values option segments)
    (hbad : ∀ t, parseSetting P option value ≠ .ok t) : ∃ e, parseSettings P segments = .error e := by
  cases hts : parseSettings P segments with
  | error e => exact ⟨e, rfl⟩
  | ok ts =>
    obtain ⟨t, ht⟩ := (parses_of_parseSettings hts option).exists_of_mem hmem
    exact absurd ht (hbad t)

theorem parseSettings_ok_congr {segments segments' : List Segment} {ts : List Setting}
    (hts : parseSettings P segments = .ok ts)
    (hvalues : ∀ option, values option segments' = values option segments) :
    ∃ ts', parseSettings P segments' = .ok ts' := by
  refine parseSettings_ok fun option value hmem => ?_
  rw [hvalues option] at hmem
  exact (parses_of_parseSettings hts option).exists_of_mem hmem

variable {env env' : Env}

/-- The order between different options does not matter. -/
theorem settings_congr {segments segments' : List Segment}
    (hvalues : ∀ option, values option segments = values option segments')
    (henv : ∀ option, option.additive = false → values option segments = [] →
      (env option.envKey).toOption = (env' option.envKey).toOption)
    (forwarded : List String) (pushLabels metricsLabels : List (String × String)) :
    (parseSettings P segments >>= fun ts => Args.resolveOptions P env
      ((ts.foldl Setting.apply (.start program pushLabels metricsLabels)).visited
        forwarded [])).toOption =
    (parseSettings P segments' >>= fun ts => Args.resolveOptions P env'
      ((ts.foldl Setting.apply (.start program pushLabels metricsLabels)).visited
        forwarded [])).toOption := by
  cases hts : parseSettings P segments with
  | error e =>
    cases hts' : parseSettings P segments' with
    | error e' => rfl
    | ok ts' =>
      obtain ⟨ts, hok⟩ := parseSettings_ok_congr hts' hvalues
      rw [hts] at hok
      cases hok
  | ok ts =>
    obtain ⟨ts', hts'⟩ := parseSettings_ok_congr hts fun option => (hvalues option).symm
    have hfold := KeyedFold.foldl_eq_of_ofKey_eq Setting.apply_comm
      (ofKey_eq_of_values_eq hts hts' hvalues)
      (Extraction.start program pushLabels metricsLabels)
    rw [hts', ok_bind, ok_bind, ← hfold]
    refine resolveOptions_congr fun option hadd hnone => henv option hadd ?_
    exact (lookup_eq_none_iff hts hadd pushLabels metricsLabels).mp hnone

theorem extract_congr {rest rest' : List String} {seg seg' : Segmentation}
    (hseg : segmentation B rest = .ok seg) (hseg' : segmentation B rest' = .ok seg')
    (hinfo : seg.information = seg'.information)
    (hwords : seg.upstreamWords = seg'.upstreamWords)
    (hvalues : ∀ option, values option seg.segments = values option seg'.segments)
    (henv : ∀ option, seg.Effective option →
      (env option.envKey).toOption = (env' option.envKey).toOption) :
    (Args.extractAppOptionsWithEnv B P (program :: rest) env).toOption =
      (Args.extractAppOptionsWithEnv B P (program :: rest') env').toOption := by
  by_cases hnone : seg.information = .none
  · have hnone' := hinfo ▸ hnone
    have hforwarded : seg.forwarded = seg'.forwarded := by
      simpa only [Segmentation.forwarded, Segmentation.upstreamWords, hnone, hnone'] using hwords
    have hpush := envLabels_congr true (henv .pushLabel ⟨hnone, .inl rfl⟩)
    have hmetrics := envLabels_congr false (henv .metricsLabel ⟨hnone, .inl rfl⟩)
    simp only [WrapperOption.envKey] at hpush hmetrics
    rw [extract_of_segmentation B P program rest env hseg hnone,
      extract_of_segmentation B P program rest' env' hseg' hnone', toOption_bind, toOption_bind,
      hpush]
    refine congrArg _ (funext fun pushLabels => ?_)
    rw [toOption_bind, toOption_bind, hmetrics]
    refine congrArg _ (funext fun metricsLabels => ?_)
    rw [hforwarded]
    exact settings_congr hvalues (fun option hadd hempty => henv option ⟨hnone, .inr hempty⟩) _
      pushLabels metricsLabels
  · rw [extract_of_information B P program rest env hseg hnone,
      extract_of_information B P program rest' env' hseg' (hinfo ▸ hnone), hinfo]

theorem resolved_of_extract {rest forwarded : List String} {seg : Segmentation}
    {app : AppOptions Url} (hseg : segmentation B rest = .ok seg)
    (hinfo : seg.information = .none)
    (h : Args.extractAppOptionsWithEnv B P (program :: rest) env = .ok (app, forwarded)) :
    Resolved P env seg.segments app ∧ forwarded = program :: seg.upstreamWords := by
  rw [extract_of_segmentation B P program rest env hseg hinfo] at h
  simp only [bind_eq_ok] at h
  obtain ⟨pushLabels, hpush, metricsLabels, hmetrics, ts, hts, hresolve⟩ := h
  obtain ⟨saw, hmerge, -, rfl⟩ := resolveOptions_eq_ok.mp hresolve
  have hlabels : ∀ option, option.additive = true → LabelsOf option (option == .pushLabel) env
      seg.segments ((ts.foldl Setting.apply (.start program pushLabels metricsLabels)).labels
        option) := by
    intro option hadd
    have hts := parses_of_parseSettings hts option
    cases option <;> cases hadd
    · exact labelsOf_of_parses rfl hpush hts rfl
    · exact labelsOf_of_parses rfl hmetrics hts rfl
  refine ⟨resolved_of_merge hts (fun option hadd => ?_) (fun option hadd => ?_) hmerge, ?_⟩
  · exact Extraction.lookup_foldl hadd program pushLabels metricsLabels ts
  · exact hlabels option hadd
  · simp only [Extraction.visited, Segmentation.forwarded, Segmentation.upstreamWords, hinfo]

end Extract

/-- What the result for `program :: rest` depends on, and what it is made of. -/
structure Determined {Url : Type} (B : ArgBoundary) (P : Platform Url) (program : String)
    (rest : List String) (seg : Segmentation) : Prop where
  segmented : segmentation B rest = .ok seg
  congruent : ∀ rest' seg' env env', (∀ word ∈ rest', Args.hasNul word = false) →
    segmentation B rest' = .ok seg' → seg.upstreamWords = seg'.upstreamWords →
    (∀ option, values option seg.segments = values option seg'.segments) →
    (∀ option, seg.Effective option →
      (env option.envKey).toOption = (env' option.envKey).toOption) →
    (Args.extractAppOptionsWithEnv B P (program :: rest) env).toOption =
      (Args.extractAppOptionsWithEnv B P (program :: rest') env').toOption
  resolved : seg.information = .none → ∀ env app forwarded,
    Args.extractAppOptionsWithEnv B P (program :: rest) env = .ok (app, forwarded) →
      Resolved P env seg.segments app ∧ forwarded = program :: seg.upstreamWords
  overridden : ∀ env option given, option.additive = false → values option seg.segments ≠ [] →
    (Args.extractAppOptionsWithEnv B P (program :: rest)
      (Function.update env option.envKey given)).toOption =
      (Args.extractAppOptionsWithEnv B P (program :: rest) env).toOption
  information : seg.information ≠ .none → ∀ env env',
    Args.extractAppOptionsWithEnv B P (program :: rest) env =
      Args.extractAppOptionsWithEnv B P (program :: rest) env'
  invalid : seg.information = .none → ∀ env option, ∀ value ∈ values option seg.segments,
    (∀ t, parseSetting P option value ≠ .ok t) →
      ∃ e, Args.extractAppOptionsWithEnv B P (program :: rest) env = .error e

theorem extract_determined {Url : Type} (B : NativeBoundary) (P : Platform Url) (program : String)
    (rest : List String) (hnul : ∀ word ∈ rest, Args.hasNul word = false) :
    ∃ seg, Determined B P program rest seg := by
  obtain ⟨seg, hseg⟩ := segmentation_of_noNul B hnul
  refine ⟨seg, hseg, ?_, ?_, ?_, ?_, ?_⟩
  · intro rest' seg' env env' _ hseg' hwords hvalues henv
    have hinfo := information_eq (reads_of_segmentation hseg) (reads_of_segmentation hseg') hwords
    exact extract_congr hseg hseg' hinfo hwords hvalues henv
  · intro hinfo env app forwarded h
    exact resolved_of_extract hseg hinfo h
  · intro env option given hadd hgiven
    refine extract_congr hseg hseg rfl rfl (fun _ => rfl) ?_
    rintro other ⟨-, hother⟩
    have hne : other ≠ option := by
      rintro rfl
      rcases hother with hother | hother
      · rw [hadd] at hother
        cases hother
      · exact hgiven hother
    rw [Function.update_of_ne (fun he => hne (WrapperOption.envKey_injective he))]
  · intro hinfo env env'
    rw [extract_of_information B P program rest env hseg hinfo,
      extract_of_information B P program rest env' hseg hinfo]
  · intro hinfo env option value hmem hbad
    obtain ⟨e, he⟩ := parseSettings_error hmem hbad
    rw [extract_of_segmentation B P program rest env hseg hinfo]
    cases Args.envLabels env "IPERF3_PUSH_LABELS" true with
    | error e => exact ⟨e, rfl⟩
    | ok pushLabels =>
      cases Args.envLabels env "IPERF3_METRICS_LABELS" false with
      | error e => exact ⟨e, rfl⟩
      | ok metricsLabels => exact ⟨e, by rw [he]; rfl⟩

theorem extract_determined_overridden :
    (∀ word ∈ ["-c", "host", "--push.retries=1", "--push.url", "localhost"],
      Args.hasNul word = false) ∧
    ∃ seg, Determined clientBoundary httpPlatform "iperf3-rs"
      ["-c", "host", "--push.retries=1", "--push.url", "localhost"] seg :=
  ⟨by decide, extract_determined clientBoundary httpPlatform "iperf3-rs" _ (by decide)⟩

/-- A request for help leaves the options before it unread. -/
theorem information_skips_options :
    (¬ ∀ rest seg env app forwarded, segmentation clientBoundary rest = .ok seg →
      Args.extractAppOptionsWithEnv clientBoundary httpPlatform ("iperf3-rs" :: rest) env =
        .ok (app, forwarded) →
      Resolved httpPlatform env seg.segments app) ∧
    ¬ ∀ rest seg env option, ∀ value ∈ values option seg.segments,
      segmentation clientBoundary rest = .ok seg →
      (∀ t, parseSetting httpPlatform option value ≠ .ok t) →
      ∃ e, Args.extractAppOptionsWithEnv clientBoundary httpPlatform ("iperf3-rs" :: rest) env =
        .error e := by
  have hhelp : Reads clientBoundary ["--help"] ⟨[.upstream ["--help"]], [], 1, .help⟩ :=
    .information "--help" [] 1 1 (by decide) (by decide) rfl (by decide)
  constructor
  · intro h
    have hreads := Reads.inline "--push.job=lab" ["--help"] .pushJob "lab" _ (by decide)
      (by decide) hhelp
    obtain ⟨job, hjob, value, hvalue, hsome⟩ := (h _ _ (fun _ => .ok none) _ _
      (segmentation_of_reads hreads) rfl).pushJob
    cases hvalue
    subst hsome
    exact absurd hjob (by decide)
  · intro h
    have hreads := Reads.inline "--push.retries=many" ["--help"] .pushRetries "many" _
      (by decide) (by decide) hhelp
    obtain ⟨e, he⟩ := h _ _ (fun _ => .ok none) .pushRetries (some "many") (by decide)
      (segmentation_of_reads hreads) (fun t ht => by cases ht)
    cases he

end Iperf3Rs
