import Iperf3Rs.ArgDeterminacy

/-! The forwarded argv is a fixed point of `extract_app_options_with_env`. The words that a wrapper
option stood between are read as before: an upstream option keeps the operand that followed it,
and one that has none is read in the same way before any word or none. -/

namespace Iperf3Rs

/-- The options of a command line and an environment that set none. -/
def AppOptions.default {Url : Type} : AppOptions Url := Args.informationOptions false false

/-- The second reading has the upstream segments of the first one, and the same cut-off. -/
structure SameUpstream (seg own : Segmentation) : Prop where
  segments : own.segments = seg.segments.filter Segment.isUpstream
  tail : own.tail = seg.tail
  tailSpan : own.tailSpan = seg.tailSpan
  information : own.information = seg.information

theorem parseSettings_unwrapped {Url : Type} (P : Platform Url) (segments : List Segment) :
    parseSettings P (segments.filter Segment.isUpstream) = .ok [] := by
  induction segments with
  | nil => rfl
  | cons segment segments ih =>
    cases segment with
    | wrapper option value words => exact ih
    | upstream words =>
      rw [List.filter_cons_of_pos rfl, parseSettings, ih]

theorem flatMap_unwrapped (segments : List Segment) :
    (segments.filter Segment.isUpstream).flatMap Segment.upstreamWords =
      segments.flatMap Segment.upstreamWords := by
  induction segments with
  | nil => rfl
  | cons segment segments ih =>
    cases segment with
    | wrapper option value words =>
      rw [List.filter_cons_of_neg (by simp [Segment.isUpstream]), ih]
      rfl
    | upstream words => rw [List.filter_cons_of_pos rfl, List.flatMap_cons, List.flatMap_cons, ih]

section Unwrapped

variable {seg : Segmentation} (hinfo : seg.information = .none)

include hinfo

theorem sameUpstream_unwrapped : SameUpstream seg seg.unwrapped where
  segments := rfl
  tail := by simp only [Segmentation.unwrapped, hinfo]
  tailSpan := rfl
  information := rfl

theorem unwrapped_forwarded : seg.unwrapped.forwarded = seg.forwarded := by
  simp only [Segmentation.forwarded, (sameUpstream_unwrapped hinfo).tail]
  rw [Segmentation.unwrapped, flatMap_unwrapped]

theorem upstreamWords_eq_forwarded : seg.upstreamWords = seg.forwarded := by
  simp only [Segmentation.upstreamWords, Segmentation.forwarded, hinfo]

end Unwrapped

theorem extract_of_unset {Url : Type} {B : ArgBoundary} (P : Platform Url) (program : String)
    {words : List String} {own : Segmentation} (hown : segmentation B words = .ok own)
    (hinfo : own.information = .none) (hsettings : parseSettings P own.segments = .ok []) :
    Args.extractAppOptionsWithEnv B P (program :: words) (fun _ => .ok none) =
      .ok (AppOptions.default, program :: own.forwarded) := by
  rw [extract_of_segmentation B P program words _ hown hinfo, hsettings]
  rfl

/-- Extracting again finds nothing to take out and splits the words in the same places. -/
theorem extract_forwarded {Url : Type} (B : NativeBoundary) (P : Platform Url) (args : List String)
    (env : Env) (app : AppOptions Url) (forwarded : List String)
    (h : Args.extractAppOptionsWithEnv B P args env = .ok (app, forwarded))
    (hhelp : app.showHelp = false) (hversion : app.showVersion = false) :
    Args.extractAppOptionsWithEnv B P forwarded (fun _ => .ok none) =
      .ok (AppOptions.default, forwarded) ∧
    ∃ program rest words seg own, args = program :: rest ∧ forwarded = program :: words ∧
      segmentation B rest = .ok seg ∧
      Args.argumentBoundaries B rest = .ok (Args.boundariesOf [] [] 0 seg) ∧
      segmentation B words = .ok own ∧
      Args.argumentBoundaries B words = .ok (Args.boundariesOf [] [] 0 own) ∧
      SameUpstream seg own := by
  obtain ⟨program, rest, seg, rfl, hseg, hinfo⟩ := segmentation_of_extract h hhelp hversion
  obtain ⟨-, rfl⟩ := resolved_of_extract hseg hinfo h
  rw [upstreamWords_eq_forwarded hinfo]
  have hown : segmentation B seg.forwarded = .ok seg.unwrapped := by
    rw [← upstreamWords_eq_forwarded hinfo]
    exact segmentation_of_reads (reads_of_segmentation hseg).alone
  constructor
  · have hagain := extract_of_unset P program hown hinfo (parseSettings_unwrapped P seg.segments)
    rwa [unwrapped_forwarded hinfo] at hagain
  · refine ⟨program, rest, seg.forwarded, seg, seg.unwrapped, rfl, rfl, hseg, ?_, hown, ?_,
      sameUpstream_unwrapped hinfo⟩
    · rw [Args.argumentBoundaries_eq, hseg]
      rfl
    · rw [Args.argumentBoundaries_eq, hown]
      rfl

theorem extract_forwarded_operands :
    Args.extractAppOptionsWithEnv clientBoundary httpPlatform
        ["iperf3-rs", "-u", "-c", "--help", "--", "--push.url"] (fun _ => .ok none) =
      .ok (AppOptions.default, ["iperf3-rs", "-u", "-c", "--help", "--", "--push.url"]) ∧
    ∃ program rest words seg own,
      ["iperf3-rs", "-u", "--push.url", "localhost:9091", "-c", "--help", "--push.job=--help", "--",
        "--push.url"] = program :: rest ∧
      ["iperf3-rs", "-u", "-c", "--help", "--", "--push.url"] = program :: words ∧
      segmentation clientBoundary rest = .ok seg ∧
      Args.argumentBoundaries clientBoundary rest = .ok (Args.boundariesOf [] [] 0 seg) ∧
      segmentation clientBoundary words = .ok own ∧
      Args.argumentBoundaries clientBoundary words = .ok (Args.boundariesOf [] [] 0 own) ∧
      SameUpstream seg own :=
  extract_forwarded clientBoundary httpPlatform _
    (fun key => .ok (if key = "IPERF3_PUSH_RETRIES" then some "2" else none)) _ _ rfl rfl rfl

end Iperf3Rs
