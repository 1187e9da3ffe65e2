import Iperf3Rs.PushGatewayConfig

/-! Construction of the Prometheus encoder. Its labels are checked apart from those of the
Pushgateway, with another reserved name. -/

namespace Iperf3Rs

structure PrometheusEncoder where
  metricPrefix : String
  labels : List (String × String)
  deriving DecidableEq

namespace PrometheusEncoder

def isValidLabelName (name : String) : Bool := isIdentifier name

def validateLabel (name value : String) : Except Error Unit :=
  if !isValidLabelName name then
    .error (.invalidArgument s!"invalid Prometheus label name '{name}'")
  else if name = "__name__" then
    .error (.invalidArgument "Prometheus label name '__name__' is reserved")
  else if value = "" then
    .error (.invalidArgument s!"Prometheus label value for '{name}' must not be empty")
  else .ok ()

def validateLabels (labels : List (String × String)) : Except Error Unit := do
  labels.forM fun (name, value) => validateLabel name value
  rejectDuplicates
    (fun name => .invalidArgument s!"duplicate Prometheus label name '{name}'") [] labels

def withLabels (metricPrefix : String) (labels : List (String × String)) :
    Except Error PrometheusEncoder := do
  validateMetricPrefix metricPrefix
  validateLabels labels
  return ⟨metricPrefix, labels⟩

theorem validateLabel_eq_ok {name value : String} :
    validateLabel name value = .ok () ↔ isIdentifier name = true ∧ name ≠ "__name__" ∧ value ≠ "" := by
  simp only [validateLabel, isValidLabelName]
  rcases Bool.eq_false_or_eq_true (isIdentifier name) with hname | hname
  · by_cases hreserved : name = "__name__"
    · subst hreserved
      simp [hname]
    · simp [hname, hreserved]
  · simp [hname]

theorem validateLabels_eq_ok {labels : List (String × String)} :
    validateLabels labels = .ok () ↔ (∀ label ∈ labels, isIdentifier label.1 = true ∧
      label.1 ≠ "__name__" ∧ label.2 ≠ "") ∧ (labels.map Prod.fst).Nodup := by
  simp only [validateLabels, bind_eq_ok, rejectDuplicates_nil_eq_ok]
  constructor
  · rintro ⟨_, hlabels, hnodup⟩
    exact ⟨fun label hmem =>
      validateLabel_eq_ok.mp (forM_eq_ok.mp hlabels label hmem), hnodup⟩
  · rintro ⟨hlabels, hnodup⟩
    exact ⟨(), forM_eq_ok.mpr fun label hmem =>
      validateLabel_eq_ok.mpr (hlabels label hmem), hnodup⟩

theorem withLabels_eq_ok {metricPrefix : String} {labels : List (String × String)} :
    (∃ encoder, withLabels metricPrefix labels = .ok encoder) ↔
      validateMetricPrefix metricPrefix = .ok () ∧ validateLabels labels = .ok () := by
  simp only [withLabels, bind_eq_ok]
  constructor
  · rintro ⟨_, _, hpre, _, hlabels, -⟩
    exact ⟨hpre, hlabels⟩
  · rintro ⟨hpre, hlabels⟩
    exact ⟨⟨metricPrefix, labels⟩, (), hpre, (), hlabels, rfl⟩

end PrometheusEncoder

end Iperf3Rs
