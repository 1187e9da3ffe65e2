import Iperf3Rs.ArgDeterminacy
import Iperf3Rs.PrometheusEncoder
import Iperf3Rs.SeparatedItems

/-! What `cli::run` hands to the sinks, and what the option parser has established about it. -/

namespace Iperf3Rs

namespace Cli

variable {Url : Type}

def pushGatewayConfig (app : AppOptions Url) (pushUrl : Url) : PushGatewayConfig Url :=
  { PushGatewayConfig.new pushUrl with
    job := app.pushJob
    labels := app.pushLabels
    timeout := app.pushTimeout
    retries := app.pushRetries
    userAgent := app.pushUserAgent
    metricPrefix := app.metricsPrefix
    deleteOnFinish := app.pushDeleteOnExit }

/-- The first step of `MetricsFileSink::with_prefix_and_labels`; the file is created after it. -/
def metricsFileEncoder (app : AppOptions Url) : Except Error PrometheusEncoder :=
  PrometheusEncoder.withLabels app.metricsPrefix app.metricsLabels

end Cli

theorem parseLabel_eq_ok {option raw name value : String} {reserveJob : Bool} :
    Args.parseLabel option raw reserveJob = .ok (name, value) ↔
      Text.splitOnce '=' raw = some (name, value) ∧ isIdentifier name = true ∧
        (reserveJob = true → PushGatewayConfig.isReservedLabelName name = false) ∧ value ≠ "" := by
  simp only [Args.parseLabel]
  cases hsplit : Text.splitOnce '=' raw with
  | none => simp
  | some pair =>
    obtain ⟨n, v⟩ := pair
    simp only [PushGatewayConfig.isValidLabelName, Option.some.injEq, Prod.mk.injEq]
    by_cases hname : isIdentifier n = true
    · by_cases hres : (reserveJob && PushGatewayConfig.isReservedLabelName n) = true
      · simp only [hname, hres, Bool.not_true, Bool.false_eq_true, if_false, if_true]
        constructor
        · intro h
          cases h
        · rintro ⟨⟨rfl, rfl⟩, -, himp, -⟩
          rw [Bool.and_eq_true] at hres
          rw [himp hres.1] at hres
          cases hres.2
      · by_cases hv : v = ""
        · simp only [hname, hres, hv, Bool.not_true, Bool.false_eq_true, if_false, if_true]
          constructor
          · intro h
            cases h
          · rintro ⟨⟨-, rfl⟩, -, -, hne⟩
            exact absurd rfl hne
        · simp only [hname, hres, hv, Bool.not_true, Bool.false_eq_true, if_false, Except.ok.injEq,
            Prod.mk.injEq]
          constructor
          · rintro ⟨rfl, rfl⟩
            refine ⟨⟨rfl, rfl⟩, hname, fun hr => ?_, hv⟩
            simpa [hr] using hres
          · rintro ⟨⟨rfl, rfl⟩, -⟩
            exact ⟨rfl, rfl⟩
    · simp only [hname, Bool.not_false, if_true]
      constructor
      · intro h
        cases h
      · rintro ⟨⟨rfl, rfl⟩, hname', -⟩
        exact absurd hname' hname

/-- The texts an environment variable of labels is split into. -/
def envEntries (text : String) : List String :=
  if Text.trim text = "" then [] else (Text.split ',' text).map Text.trim

/-- What an option of labels is given, on the command line or in the environment. -/
def LabelText (option : WrapperOption) (env : Env) (segments : List Segment) (raw : String) : Prop :=
  some raw ∈ values option segments ∨
    ∃ text, env option.envKey = .ok (some text) ∧ raw ∈ envEntries text

theorem envLabels_eq_ok {env : Env} {key : String} {reserveJob : Bool}
    {labels : List (String × String)} (h : Args.envLabels env key reserveJob = .ok labels) :
    ∃ given, env key = .ok given ∧ List.Forall₂
      (fun raw label => Args.parseLabel key raw reserveJob = .ok label)
      (given.toList.flatMap envEntries) labels := by
  simp only [Args.envLabels] at h
  split at h
  · cases h
  · next he =>
    cases h
    exact ⟨none, he, .nil⟩
  · next text he =>
    refine ⟨some text, he, ?_⟩
    simp only [Args.parseEnvLabels] at h
    simp only [Option.toList_some, List.flatMap_cons, List.flatMap_nil, List.append_nil, envEntries]
    split at h
    · next hblank =>
      cases h
      rw [if_pos hblank]
      exact .nil
    · next hblank =>
      rw [if_neg hblank]
      exact SeparatedItems.mapM_eq_ok.mp h

theorem LabelsOf.texts {option : WrapperOption} {reserveJob : Bool} {env : Env}
    {segments : List Segment} {labels : List (String × String)}
    (h : LabelsOf option reserveJob env segments labels) :
    (∀ label ∈ labels, ∃ name raw, LabelText option env segments raw ∧
      Args.parseLabel name raw reserveJob = .ok label) ∧
    ∀ raw, LabelText option env segments raw → ∃ name, ∃ label ∈ labels,
      Args.parseLabel name raw reserveJob = .ok label := by
  obtain ⟨fromEnv, fromCli, henv, hcli, rfl⟩ := h
  obtain ⟨given, hgiven, hentries⟩ := envLabels_eq_ok henv
  constructor
  · intro label hmem
    rcases List.mem_append.mp hmem with hmem | hmem
    · obtain ⟨raw, hraw, hparse⟩ := exists_of_forall₂ hentries hmem
      cases given with
      | none => cases hraw
      | some text =>
        simp only [Option.toList_some, List.flatMap_cons, List.flatMap_nil,
          List.append_nil] at hraw
        exact ⟨option.envKey, raw, .inr ⟨text, hgiven, hraw⟩, hparse⟩
    · obtain ⟨value, hvalue, raw, rfl, hparse⟩ := exists_of_forall₂ hcli hmem
      exact ⟨option.name, raw, .inl hvalue, hparse⟩
  · rintro raw (hraw | ⟨text, htext, hraw⟩)
    · obtain ⟨label, hlabel, raw', hraw', hparse⟩ := exists_of_forall₂ hcli.flip hraw
      cases hraw'
      exact ⟨option.name, label, List.mem_append_right _ hlabel, hparse⟩
    · rw [hgiven] at htext
      cases htext
      have hmem : raw ∈ (some text).toList.flatMap envEntries := by simpa using hraw
      obtain ⟨label, hlabel, hparse⟩ := exists_of_forall₂ hentries.flip hmem
      exact ⟨option.envKey, label, List.mem_append_left _ hlabel, hparse⟩

theorem checkOptions_eq_ok {Url : Type} {s : Extraction} {app : AppOptions Url} {saw : Bool}
    (h : Args.checkOptions s app saw = .ok ()) :
    (app.pushUrl.isSome = true → app.pushJob ≠ "") ∧ (app.pushLabels.map Prod.fst).Nodup ∧
      (app.metricsLabels.map Prod.fst).Nodup := by
  simp only [Args.checkOptions] at h
  repeat' split at h
  all_goals try cases h
  next hjob =>
    obtain ⟨_, hpush, hmetrics⟩ := bind_eq_ok.mp h
    refine ⟨fun hurl hempty => hjob (by simp [hurl, hempty]), ?_, ?_⟩
    · exact (rejectDuplicates_nil_eq_ok _ _).mp hpush
    · exact (rejectDuplicates_nil_eq_ok _ _).mp hmetrics

/-- The run of the option parser behind options that name a sink. -/
structure Accepted {Url : Type} (P : Platform Url) (env : Env) (segments : List Segment)
    (app : AppOptions Url) : Prop where
  resolved : Resolved P env segments app
  pushJob : app.pushUrl.isSome = true → app.pushJob ≠ ""
  pushLabels : (app.pushLabels.map Prod.fst).Nodup
  metricsLabels : (app.metricsLabels.map Prod.fst).Nodup

theorem accepted_of_sink {Url : Type} {B : NativeBoundary} {P : Platform Url} {args : List String}
    {env : Env} {app : AppOptions Url} {forwarded : List String}
    (h : Args.extractAppOptionsWithEnv B P args env = .ok (app, forwarded))
    (hsink : app.pushUrl.isSome = true ∨ app.metricsFile.isSome = true) :
    ∃ program rest seg, args = program :: rest ∧ segmentation B rest = .ok seg ∧
      Accepted P env seg.segments app := by
  cases args with
  | nil => cases h
  | cons program rest =>
    cases hseg : segmentation B rest with
    | error e =>
      rw [extract_of_error B P program rest env hseg] at h
      cases h
    | ok seg =>
      by_cases hinfo : seg.information = .none
      · have hresolved := (resolved_of_extract hseg hinfo h).1
        rw [extract_of_segmentation B P program rest env hseg hinfo] at h
        simp only [bind_eq_ok] at h
        obtain ⟨_, -, _, -, _, -, hresolve⟩ := h
        obtain ⟨saw, -, hcheck, -⟩ := resolveOptions_eq_ok.mp hresolve
        obtain ⟨hjob, hpush, hmetrics⟩ := checkOptions_eq_ok hcheck
        exact ⟨program, rest, seg, rfl, hseg, hresolved, hjob, hpush, hmetrics⟩
      · rw [extract_of_information B P program rest env hseg hinfo] at h
        cases h
        rcases hsink with hsink | hsink <;> cases hsink

end Iperf3Rs
