import Iperf3Rs.MetricsFileJsonl

/-! The records of the JSONL metrics file are printable ASCII, so that a newline only ever stands
behind a record. -/

namespace Iperf3Rs

open JsonText

variable {F : Type} [F64 F] (T : FloatText F)

theorem plainFields_of_values {fields : List (String × Pieces)}
    (hkeys : (fields.map Prod.fst).all isPlain = true)
    (hvalues : ∀ value ∈ fields.map Prod.snd, PlainPieces value) : PlainFields fields := by
  intro field hfield
  exact ⟨List.all_eq_true.mp hkeys field.1 (List.mem_map_of_mem hfield),
    hvalues field.2 (List.mem_map_of_mem hfield)⟩

theorem plainPieces_variant {variant : String} (h : isPlain variant = true) (value : Int) :
    PlainPieces (object [(variant, number value)]) :=
  plainPieces_object (plainFields_of_values (by simpa using h)
    (by simpa using plainPieces_number value))

theorem Role.plainPieces (role : Role) : PlainPieces role.pieces := by
  cases role with
  | client => exact plainPieces_quoted (by decide)
  | server => exact plainPieces_quoted (by decide)
  | unknown value => exact plainPieces_variant (by decide) _

theorem MetricDirection.plainPieces (direction : MetricDirection) :
    PlainPieces direction.pieces := by
  cases direction with
  | unknown => exact plainPieces_quoted (by decide)
  | sender => exact plainPieces_quoted (by decide)
  | receiver => exact plainPieces_quoted (by decide)
  | other value => exact plainPieces_variant (by decide) _

theorem TransportProtocol.plainPieces (protocol : TransportProtocol) :
    PlainPieces protocol.pieces := by
  cases protocol with
  | unknown => exact plainPieces_quoted (by decide)
  | tcp => exact plainPieces_quoted (by decide)
  | udp => exact plainPieces_quoted (by decide)
  | sctp => exact plainPieces_quoted (by decide)
  | other value => exact plainPieces_variant (by decide) _

theorem plainPieces_bool (value : Bool) : PlainPieces (boolPieces value) := by
  cases value <;> exact plainPieces_singleton (by decide)

theorem plainPieces_float (value : F) : PlainPieces (floatPieces T value) := by
  unfold floatPieces
  split
  · exact plainPieces_singleton (T.plain value)
  · exact plainPieces_null

theorem plainPieces_option (value : Option F) : PlainPieces (optionPieces T value) := by
  cases value with
  | none => exact plainPieces_null
  | some value => exact plainPieces_float T value

theorem WindowGaugeStats.plainPieces (stats : WindowGaugeStats F) :
    PlainPieces (stats.pieces T) := by
  refine plainPieces_object (plainFields_of_values ?_ ?_)
  · simp only [List.map_cons, List.map_nil]
    decide
  · simp [plainPieces_number, plainPieces_float]

theorem Metrics.plainFields (metrics : Metrics F) : PlainFields (metrics.jsonFields T) := by
  refine plainFields_of_values ?_ ?_
  · simp only [Metrics.jsonFields, List.map_cons, List.map_nil]
    decide
  · simp [Metrics.jsonFields, plainPieces_number, plainPieces_float, plainPieces_option,
      plainPieces_bool, Role.plainPieces, MetricDirection.plainPieces,
      TransportProtocol.plainPieces]

theorem WindowMetrics.plainFields (metrics : WindowMetrics F) :
    PlainFields (metrics.jsonFields T) := by
  refine plainFields_of_values ?_ ?_
  · simp only [WindowMetrics.jsonFields, List.map_cons, List.map_nil]
    decide
  · simp [WindowMetrics.jsonFields, plainPieces_number, plainPieces_float, plainPieces_option,
      WindowGaugeStats.plainPieces, Role.plainPieces, MetricDirection.plainPieces,
      TransportProtocol.plainPieces]

theorem plainPieces_jsonlEvent {event : String} (hevent : isPlain event = true)
    {fields : List (String × Pieces)} (h : PlainFields fields) :
    PlainPieces (jsonlEvent event fields) := by
  refine plainPieces_object fun field hfield => ?_
  simp only [List.mem_cons] at hfield
  rcases hfield with rfl | rfl | hfield
  · exact ⟨by decide, plainPieces_number _⟩
  · exact ⟨(by decide : isPlain "event" = true), plainPieces_quoted hevent⟩
  · exact h field hfield

/-- What a call that goes through writes before the newline. -/
def SinkCall.pieces : SinkCall F → Pieces
  | .interval metrics | .event (.interval metrics) => jsonlEvent "interval" (metrics.jsonFields T)
  | .window metrics | .event (.window metrics) => jsonlEvent "window" (metrics.jsonFields T)

theorem SinkCall.plainPieces (call : SinkCall F) : PlainPieces (call.pieces T) := by
  have hinterval (metrics : Metrics F) :
      PlainPieces (jsonlEvent "interval" (metrics.jsonFields T)) :=
    plainPieces_jsonlEvent (by decide) (metrics.plainFields T)
  have hwindow (metrics : WindowMetrics F) :
      PlainPieces (jsonlEvent "window" (metrics.jsonFields T)) :=
    plainPieces_jsonlEvent (by decide) (metrics.plainFields T)
  cases call with
  | interval metrics => exact hinterval metrics
  | window metrics => exact hwindow metrics
  | event event =>
    cases event with
    | interval metrics => exact hinterval metrics
    | window metrics => exact hwindow metrics

end Iperf3Rs
