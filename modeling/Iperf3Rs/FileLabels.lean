import Iperf3Rs.PushConfigAgreement

/-! Labels for the metrics file. The option parser reserves no name among them, the Prometheus
encoder reserves `__name__`, so that name gets past the parser and stops the file sink. -/

namespace Iperf3Rs

variable {Url : Type} {B : NativeBoundary} {P : Platform Url}

/-- Some label text for the metrics file gives the name `__name__`. -/
def NamesMetric (B : ArgBoundary) (args : List String) (env : Env) : Prop :=
  ∃ program rest seg raw, args = program :: rest ∧ segmentation B rest = .ok seg ∧
    LabelText .metricsLabel env seg.segments raw ∧
    (Text.splitOnce '=' raw).map Prod.fst = some "__name__"

theorem metricsPrefix_of_accepted {env : Env} {segments : List Segment} {app : AppOptions Url}
    (h : Accepted P env segments app) : validateMetricPrefix app.metricsPrefix = .ok () := by
  obtain ⟨metricsPrefix, hpre, hsettles⟩ := h.resolved.metricsPrefix
  rw [hpre]
  exact hsettles.getD (by decide) fun _ _ _ => validateMetricPrefix_of_parse

theorem encoder_of_accepted {env : Env} {segments : List Segment} {app : AppOptions Url}
    (h : Accepted P env segments app) :
    (∃ encoder, Cli.metricsFileEncoder app = .ok encoder) ↔
      ∀ label ∈ app.metricsLabels, label.1 ≠ "__name__" := by
  rw [Cli.metricsFileEncoder, PrometheusEncoder.withLabels_eq_ok,
    PrometheusEncoder.validateLabels_eq_ok]
  constructor
  · rintro ⟨-, hvalid, -⟩ label hmem
    exact (hvalid label hmem).2.1
  · intro hnames
    refine ⟨metricsPrefix_of_accepted h, fun label hmem => ?_, h.metricsLabels⟩
    obtain ⟨_, raw, -, hparse⟩ := h.resolved.metricsLabels.texts.1 label hmem
    obtain ⟨-, hname, -, hvalue⟩ := parseLabel_eq_ok.mp hparse
    exact ⟨hname, hnames label hmem, hvalue⟩

/-- `__name__` is the only label on which the parser and the encoder differ. -/
theorem metricsFileEncoder_ok_iff (B : NativeBoundary) (P : Platform Url) (args : List String)
    (env : Env) (app : AppOptions Url) (forwarded : List String)
    (h : Args.extractAppOptionsWithEnv B P args env = .ok (app, forwarded))
    (hfile : app.metricsFile.isSome = true) :
    (∃ encoder, Cli.metricsFileEncoder app = .ok encoder) ↔ ¬ NamesMetric B args env := by
  obtain ⟨program, rest, seg, rfl, hseg, haccepted⟩ := accepted_of_sink h (.inr hfile)
  obtain ⟨hlabels, htexts⟩ := haccepted.resolved.metricsLabels.texts
  rw [encoder_of_accepted haccepted]
  constructor
  · rintro hnames ⟨program', rest', seg', raw, hargs, hseg', hraw, hname⟩
    cases hargs
    rw [hseg] at hseg'
    cases hseg'
    obtain ⟨_, label, hmem, hparse⟩ := htexts raw hraw
    rw [(parseLabel_eq_ok.mp hparse).1, Option.map_some, Option.some.injEq] at hname
    exact hnames label hmem hname
  · intro hnone label hmem hreserved
    obtain ⟨_, raw, hraw, hparse⟩ := hlabels label hmem
    have hsplit := (parseLabel_eq_ok.mp hparse).1
    exact hnone ⟨program, rest, seg, raw, rfl, hseg, hraw, by rw [hsplit, ← hreserved]; rfl⟩

theorem metricsFileEncoder_ok_site : ∃ app, Args.extractAppOptionsWithEnv clientBoundary
      httpPlatform ["iperf3-rs", "--metrics.file=m.prom", "--metrics.format=prometheus",
        "--metrics.label=site=ci"] (fun _ => .ok none) = .ok (app, ["iperf3-rs"]) ∧
    app.metricsFile.isSome = true ∧
    ((∃ encoder, Cli.metricsFileEncoder app = .ok encoder) ↔ ¬ NamesMetric clientBoundary
      ["iperf3-rs", "--metrics.file=m.prom", "--metrics.format=prometheus",
        "--metrics.label=site=ci"] (fun _ => .ok none)) :=
  ⟨_, rfl, rfl, metricsFileEncoder_ok_iff clientBoundary httpPlatform _ _ _ ["iperf3-rs"] rfl rfl⟩

/-- The parser accepts the name, and the sink fails after it. -/
theorem metricsFileEncoder_rejects_name : ∃ app, Args.extractAppOptionsWithEnv clientBoundary
      httpPlatform ["iperf3-rs", "--metrics.file=m.prom", "--metrics.format=prometheus",
        "--metrics.label=__name__=collision"] (fun _ => .ok none) = .ok (app, ["iperf3-rs"]) ∧
    app.metricsFile = some "m.prom" ∧
    Cli.metricsFileEncoder app =
      .error (.invalidArgument "Prometheus label name '__name__' is reserved") :=
  ⟨_, rfl, rfl, rfl⟩

end Iperf3Rs
