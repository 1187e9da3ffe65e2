import Iperf3Rs.CliSinks

/-! The option parser and the Pushgateway config make the same checks apart from each other. What
the parser lets through, the config accepts, and the other way round. -/

namespace Iperf3Rs

variable {Url : Type} {P : Platform Url}

/-- An HTTP URL has its scheme and a host, and the clock reaches the default timeout. -/
structure Platform.Lawful (P : Platform Url) : Prop where
  httpUrl : ∀ text url, (Text.startsWith text "http://" || Text.startsWith text "https://") = true →
    P.parseUrl text = .ok url →
    (P.scheme url = "http" ∨ P.scheme url = "https") ∧ (P.hostStr url).isSome = true
  defaultDeadline : ∃ deadline, P.checkedDeadline PushGatewayConfig.defaultTimeout = .ok deadline

namespace PushGatewayConfig

theorem validate_eq_ok {config : PushGatewayConfig Url} :
    config.validate P = .ok () ↔ validateEndpoint P config.endpoint = .ok () ∧
      validateJob config.job = .ok () ∧ validateLabels config.labels = .ok () ∧
      validateTimeout P config.timeout = .ok () ∧ validateRetries config.retries = .ok () ∧
      validateUserAgent config.userAgent = .ok () ∧
      validateMetricPrefix config.metricPrefix = .ok () := by
  simp only [validate, bind_eq_ok]
  constructor
  · rintro ⟨_, hendpoint, _, hjob, _, hlabels, _, htimeout, _, hretries, _, huserAgent, hpre⟩
    exact ⟨hendpoint, hjob, hlabels, htimeout, hretries, huserAgent, hpre⟩
  · rintro ⟨hendpoint, hjob, hlabels, htimeout, hretries, huserAgent, hpre⟩
    exact ⟨(), hendpoint, (), hjob, (), hlabels, (), htimeout, (), hretries, (), huserAgent, hpre⟩

theorem validateEndpoint_of_parseUrl (hP : P.Lawful) {raw : String} {url : Url}
    (h : Args.parseUrl P raw = .ok url) : validateEndpoint P url = .ok () := by
  have hurl : ∃ text, (Text.startsWith text "http://" || Text.startsWith text "https://") = true ∧
      P.parseUrl text = .ok url := by
    simp only [Args.parseUrl] at h
    split at h
    · next endpoint he =>
      cases h
      simp only [parseEndpoint] at he
      split at he
      · cases he
      · split at he
        · next parsed hparsed =>
          cases he
          refine ⟨_, ?_, hparsed⟩
          split
          · assumption
          · rw [Text.startsWith_append]
            rfl
        · cases he
    · cases h
  obtain ⟨text, hstarts, hparse⟩ := hurl
  obtain ⟨hscheme, hhost⟩ := hP.httpUrl text url hstarts hparse
  simp only [validateEndpoint, hscheme, if_true, Option.isNone_eq_false_iff.mpr hhost]
  rfl

theorem validateJob_eq_ok {job : String} : validateJob job = .ok () ↔ job ≠ "" := by
  simp [validateJob]

theorem validateLabel_eq_ok {name value : String} :
    validateLabel name value = .ok () ↔
      isIdentifier name = true ∧ isReservedLabelName name = false ∧ value ≠ "" := by
  simp only [validateLabel, isValidLabelName]
  rcases Bool.eq_false_or_eq_true (isIdentifier name) with hname | hname
  · rcases Bool.eq_false_or_eq_true (isReservedLabelName name) with hreserved | hreserved
    · simp [hname, hreserved]
    · simp [hname, hreserved]
  · simp [hname]

theorem validateLabels_eq_ok {labels : List (String × String)} :
    validateLabels labels = .ok () ↔ (∀ label ∈ labels, isIdentifier label.1 = true ∧
      isReservedLabelName label.1 = false ∧ label.2 ≠ "") ∧ (labels.map Prod.fst).Nodup := by
  simp only [validateLabels, bind_eq_ok, rejectDuplicateLabels, rejectDuplicates_nil_eq_ok]
  constructor
  · rintro ⟨_, hlabels, hnodup⟩
    exact ⟨fun label hmem => validateLabel_eq_ok.mp (forM_eq_ok.mp hlabels label hmem), hnodup⟩
  · rintro ⟨hlabels, hnodup⟩
    exact ⟨(), forM_eq_ok.mpr fun label hmem => validateLabel_eq_ok.mpr (hlabels label hmem),
      hnodup⟩

theorem validateTimeout_eq_ok {timeout : Duration} :
    validateTimeout P timeout = .ok () ↔
      timeout.isZero = false ∧ ∃ deadline, P.checkedDeadline timeout = .ok deadline := by
  simp only [validateTimeout]
  cases hzero : timeout.isZero with
  | true =>
    simp only [if_true]
    constructor
    · intro h
      cases h
    · rintro ⟨h, -⟩
      cases h
  | false =>
    simp only [Bool.false_eq_true, if_false, true_and]
    cases hdeadline : P.checkedDeadline timeout with
    | error e =>
      constructor
      · intro h
        cases h
      · rintro ⟨_, h⟩
        cases h
    | ok deadline => exact ⟨fun _ => ⟨deadline, rfl⟩, fun _ => rfl⟩

end PushGatewayConfig

theorem Settles.cases {α : Type} {parse : String → String → Except String α}
    {source : Except String (Option (String × String))} {outcome : Option α}
    (h : Settles parse source outcome) :
    outcome = none ∨ ∃ name raw value, parse name raw = .ok value ∧ outcome = some value := by
  cases source with
  | error e => exact h.elim
  | ok given =>
    cases given with
    | none => exact .inl h
    | some given =>
      obtain ⟨value, hvalue, rfl⟩ := h
      exact .inr ⟨given.1, given.2, value, hvalue, rfl⟩

/-- A check that the default passes and every parsed value passes holds of the outcome. -/
theorem Settles.getD {α : Type} {parse : String → String → Except String α}
    {source : Except String (Option (String × String))} {outcome : Option α} {p : α → Prop}
    {default : α} (h : Settles parse source outcome) (hdefault : p default)
    (hparse : ∀ name raw value, parse name raw = .ok value → p value) :
    p (outcome.getD default) := by
  rcases h.cases with rfl | ⟨name, raw, value, hvalue, rfl⟩
  · exact hdefault
  · exact hparse name raw value hvalue

section Parsers

variable {name raw : String}

theorem validateTimeout_of_parse {timeout : Duration}
    (h : Args.parseDurationOption P name raw = .ok timeout) :
    PushGatewayConfig.validateTimeout P timeout = .ok () := by
  simp only [Args.parseDurationOption] at h
  split at h
  · cases h
  · split at h
    · cases h
    · split at h
      · cases h
      · next hzero =>
        split at h
        · cases h
        · next deadline hdeadline =>
          cases h
          exact PushGatewayConfig.validateTimeout_eq_ok.mpr ⟨by simpa using hzero, deadline, hdeadline⟩

theorem validateRetries_of_parse {retries : ℕ} (h : Args.parseRetries name raw = .ok retries) :
    PushGatewayConfig.validateRetries retries = .ok () := by
  simp only [Args.parseRetries] at h
  split at h
  · cases h
  · split at h
    · next hvalid =>
      cases h
      exact hvalid
    · cases h

theorem validateUserAgent_of_parse {value : String} (h : Args.parseUserAgent name raw = .ok value) :
    PushGatewayConfig.validateUserAgent value = .ok () := by
  simp only [Args.parseUserAgent] at h
  split at h
  · next hvalid =>
    cases h
    exact hvalid
  · cases h

theorem validateMetricPrefix_of_parse {value : String}
    (h : Args.parseMetricPrefix name raw = .ok value) : validateMetricPrefix value = .ok () := by
  simp only [Args.parseMetricPrefix] at h
  split at h
  · next hvalid =>
    cases h
    exact hvalid
  · cases h

end Parsers

/-- No option error is left for the config to find. -/
theorem Accepted.validate (hP : P.Lawful) {env : Env} {segments : List Segment}
    {app : AppOptions Url} (h : Accepted P env segments app) {url : Url}
    (hurl : app.pushUrl = some url) :
    (Cli.pushGatewayConfig app url).validate P = .ok () := by
  have hresolved := h.resolved
  obtain ⟨timeout, htimeout, hsettlesTimeout⟩ := hresolved.pushTimeout
  obtain ⟨retries, hretries, hsettlesRetries⟩ := hresolved.pushRetries
  obtain ⟨userAgent, huserAgent, hsettlesUserAgent⟩ := hresolved.pushUserAgent
  obtain ⟨metricsPrefix, hpre, hsettlesPrefix⟩ := hresolved.metricsPrefix
  refine PushGatewayConfig.validate_eq_ok.mpr ⟨?_, ?_, ?_, ?_, ?_, ?_, ?_⟩
  · rcases hresolved.pushUrl.cases with hnone | ⟨_, raw, value, hvalue, hsome⟩
    · rw [hnone] at hurl
      cases hurl
    · rw [hsome] at hurl
      cases hurl
      exact PushGatewayConfig.validateEndpoint_of_parseUrl hP hvalue
  · exact PushGatewayConfig.validateJob_eq_ok.mpr (h.pushJob (by rw [hurl]; rfl))
  · refine PushGatewayConfig.validateLabels_eq_ok.mpr ⟨fun label hmem => ?_, h.pushLabels⟩
    obtain ⟨name, raw, -, hparse⟩ := hresolved.pushLabels.texts.1 label hmem
    obtain ⟨-, hname, hreserved, hvalue⟩ := parseLabel_eq_ok.mp hparse
    exact ⟨hname, hreserved rfl, hvalue⟩
  · change PushGatewayConfig.validateTimeout P app.pushTimeout = .ok ()
    rw [htimeout]
    exact hsettlesTimeout.getD (PushGatewayConfig.validateTimeout_eq_ok.mpr
      ⟨by decide, hP.defaultDeadline⟩) fun _ _ _ => validateTimeout_of_parse
  · change PushGatewayConfig.validateRetries app.pushRetries = .ok ()
    rw [hretries]
    exact hsettlesRetries.getD (by decide) fun _ _ _ => validateRetries_of_parse
  · change PushGatewayConfig.validateUserAgent app.pushUserAgent = .ok ()
    rw [huserAgent]
    exact hsettlesUserAgent.getD (by decide) fun _ _ _ => validateUserAgent_of_parse
  · change validateMetricPrefix app.metricsPrefix = .ok ()
    rw [hpre]
    exact hsettlesPrefix.getD (by decide) fun _ _ _ => validateMetricPrefix_of_parse

end Iperf3Rs
