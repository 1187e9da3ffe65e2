import Iperf3Rs.JsonlReading
import Iperf3Rs.PrometheusSnapshot
import Iperf3Rs.SeparatedItems

/-! The JSONL metrics file holds what has been written: reading it back gives, line by line, the
events of the calls that returned `Ok`. -/

namespace Iperf3Rs

open JsonText JsonSyntax LineText

/-- Numbers whose text is a JSON number that reads back as the same number. -/
structure JsonFloat (F : Type) [F64 F] extends FloatText F where
  ofText : String → Option F
  isNumber_toText : ∀ value, F64.isFinite value = true → isNumber (toText value).toList = true
  ofText_toText : ∀ value, F64.isFinite value = true → ofText (toText value) = some value

def FiniteOption {F : Type} [F64 F] (value : Option F) : Prop :=
  ∀ v ∈ value, F64.isFinite v = true

structure WindowGaugeStats.Finite {F : Type} [F64 F] (stats : WindowGaugeStats F) : Prop where
  mean : F64.isFinite stats.mean = true
  min : F64.isFinite stats.min = true
  max : F64.isFinite stats.max = true

/-- No number of the sample is lost in its record. -/
structure Metrics.Finite {F : Type} [F64 F] (metrics : Metrics F) : Prop where
  timestampUnixSeconds : F64.isFinite metrics.timestampUnixSeconds = true
  transferredBytes : F64.isFinite metrics.transferredBytes = true
  bandwidthBitsPerSecond : F64.isFinite metrics.bandwidthBitsPerSecond = true
  tcpRetransmits : FiniteOption metrics.tcpRetransmits
  tcpRttSeconds : FiniteOption metrics.tcpRttSeconds
  tcpRttvarSeconds : FiniteOption metrics.tcpRttvarSeconds
  tcpSndCwndBytes : FiniteOption metrics.tcpSndCwndBytes
  tcpSndWndBytes : FiniteOption metrics.tcpSndWndBytes
  tcpPmtuBytes : FiniteOption metrics.tcpPmtuBytes
  tcpReorderEvents : FiniteOption metrics.tcpReorderEvents
  udpPackets : FiniteOption metrics.udpPackets
  udpLostPackets : FiniteOption metrics.udpLostPackets
  udpJitterSeconds : FiniteOption metrics.udpJitterSeconds
  udpOutOfOrderPackets : FiniteOption metrics.udpOutOfOrderPackets
  intervalDurationSeconds : F64.isFinite metrics.intervalDurationSeconds = true

structure WindowMetrics.Finite {F : Type} [F64 F] (metrics : WindowMetrics F) : Prop where
  timestampUnixSeconds : F64.isFinite metrics.timestampUnixSeconds = true
  durationSeconds : F64.isFinite metrics.durationSeconds = true
  transferredBytes : F64.isFinite metrics.transferredBytes = true
  bandwidthBitsPerSecond : metrics.bandwidthBitsPerSecond.Finite
  tcpRttSeconds : metrics.tcpRttSeconds.Finite
  tcpRttvarSeconds : metrics.tcpRttvarSeconds.Finite
  tcpSndCwndBytes : metrics.tcpSndCwndBytes.Finite
  tcpSndWndBytes : metrics.tcpSndWndBytes.Finite
  tcpPmtuBytes : metrics.tcpPmtuBytes.Finite
  udpJitterSeconds : metrics.udpJitterSeconds.Finite
  tcpRetransmits : FiniteOption metrics.tcpRetransmits
  tcpReorderEvents : FiniteOption metrics.tcpReorderEvents
  udpPackets : FiniteOption metrics.udpPackets
  udpLostPackets : FiniteOption metrics.udpLostPackets
  udpOutOfOrderPackets : FiniteOption metrics.udpOutOfOrderPackets
  omittedIntervals : F64.isFinite metrics.omittedIntervals = true

def MetricEvent.Finite {F : Type} [F64 F] : MetricEvent F → Prop
  | .interval metrics => metrics.Finite
  | .window metrics => metrics.Finite

def SinkCall.metricEvent {F : Type} : SinkCall F → MetricEvent F
  | .interval metrics => .interval metrics
  | .window metrics => .window metrics
  | .event e => e

section Readers

variable {F : Type} [F64 F] (J : JsonFloat F)

def readFloat : Json → Option F
  | .number text => J.ofText text
  | _ => none

def readOption : Json → Option (Option F)
  | .null => some none
  | value => (readFloat J value).map some

/-- The member of that name, read as it should be. -/
def member {α : Type} (members : List (String × Json)) (name : String)
    (read : Json → Option α) : Option α :=
  (members.lookup name).bind read

def readStats : Json → Option (WindowGaugeStats F)
  | .object members => do
    let samples ← member members "samples" readNat
    let mean ← member members "mean" (readFloat J)
    let min ← member members "min" (readFloat J)
    let max ← member members "max" (readFloat J)
    return ⟨samples, mean, min, max⟩
  | _ => none

def readInterval (members : List (String × Json)) : Option (Metrics F) := do
  return {
    timestampUnixSeconds := ← member members "timestamp_unix_seconds" (readFloat J)
    role := ← member members "role" readRole
    direction := ← member members "direction" readDirection
    streamCount := ← member members "stream_count" readNat
    protocol := ← member members "protocol" readProtocol
    transferredBytes := ← member members "transferred_bytes" (readFloat J)
    bandwidthBitsPerSecond := ← member members "bandwidth_bits_per_second" (readFloat J)
    tcpRetransmits := ← member members "tcp_retransmits" (readOption J)
    tcpRttSeconds := ← member members "tcp_rtt_seconds" (readOption J)
    tcpRttvarSeconds := ← member members "tcp_rttvar_seconds" (readOption J)
    tcpSndCwndBytes := ← member members "tcp_snd_cwnd_bytes" (readOption J)
    tcpSndWndBytes := ← member members "tcp_snd_wnd_bytes" (readOption J)
    tcpPmtuBytes := ← member members "tcp_pmtu_bytes" (readOption J)
    tcpReorderEvents := ← member members "tcp_reorder_events" (readOption J)
    udpPackets := ← member members "udp_packets" (readOption J)
    udpLostPackets := ← member members "udp_lost_packets" (readOption J)
    udpJitterSeconds := ← member members "udp_jitter_seconds" (readOption J)
    udpOutOfOrderPackets := ← member members "udp_out_of_order_packets" (readOption J)
    intervalDurationSeconds := ← member members "interval_duration_seconds" (readFloat J)
    omitted := ← member members "omitted" readBool
  }

def readWindow (members : List (String × Json)) : Option (WindowMetrics F) := do
  return {
    timestampUnixSeconds := ← member members "timestamp_unix_seconds" (readFloat J)
    role := ← member members "role" readRole
    direction := ← member members "direction" readDirection
    streamCount := ← member members "stream_count" readNat
    protocol := ← member members "protocol" readProtocol
    durationSeconds := ← member members "duration_seconds" (readFloat J)
    transferredBytes := ← member members "transferred_bytes" (readFloat J)
    bandwidthBitsPerSecond := ← member members "bandwidth_bits_per_second" (readStats J)
    tcpRttSeconds := ← member members "tcp_rtt_seconds" (readStats J)
    tcpRttvarSeconds := ← member members "tcp_rttvar_seconds" (readStats J)
    tcpSndCwndBytes := ← member members "tcp_snd_cwnd_bytes" (readStats J)
    tcpSndWndBytes := ← member members "tcp_snd_wnd_bytes" (readStats J)
    tcpPmtuBytes := ← member members "tcp_pmtu_bytes" (readStats J)
    udpJitterSeconds := ← member members "udp_jitter_seconds" (readStats J)
    tcpRetransmits := ← member members "tcp_retransmits" (readOption J)
    tcpReorderEvents := ← member members "tcp_reorder_events" (readOption J)
    udpPackets := ← member members "udp_packets" (readOption J)
    udpLostPackets := ← member members "udp_lost_packets" (readOption J)
    udpOutOfOrderPackets := ← member members "udp_out_of_order_packets" (readOption J)
    omittedIntervals := ← member members "omitted_intervals" (readFloat J)
  }

def readBody (members : List (String × Json)) (event : String) : Option (MetricEvent F) :=
  if event = "interval" then (readInterval J members).map .interval
  else if event = "window" then (readWindow J members).map .window
  else none

def readEvent : Json → Option (MetricEvent F)
  | .object members =>
    if member members "schema_version" readNat = some jsonlSchemaVersion then
      (member members "event" readText).bind (readBody J members)
    else none
  | _ => none

def readLine (line : List UInt8) : Option (MetricEvent F) :=
  ((Text.ofBytes line).bind fun text => parse text.toList).bind (readEvent J)

/-- The events of a file in which every line is complete. -/
def readFile (file : List UInt8) : Option (List (MetricEvent F)) :=
  if (file.splitOn newline).getLast? = some [] then
    (file.splitOn newline).dropLast.mapM (readLine J)
  else none

end Readers

section Fields

variable {F : Type} [F64 F] (J : JsonFloat F)

theorem denotes_float {value : F} (h : F64.isFinite value = true) :
    Denotes (chars (floatPieces J.toFloatText value)) (.number (J.toText value)) := by
  have hchars : chars (floatPieces J.toFloatText value) = (J.toText value).toList := by
    simp [chars, floatPieces, h]
  rw [hchars]
  exact denotes_number (J.isNumber_toText value h)

theorem denotes_null_pieces : Denotes (chars null) .null := denotes_null

theorem readable_float (value : F) : Readable (floatPieces J.toFloatText value) := by
  by_cases h : F64.isFinite value = true
  · exact .of_denotes (denotes_float J h)
  · rw [floatPieces, if_neg h]
    exact .of_denotes denotes_null_pieces

theorem readable_option (value : Option F) : Readable (optionPieces J.toFloatText value) := by
  cases value with
  | none => exact .of_denotes denotes_null_pieces
  | some value => exact readable_float J value

theorem readFloat_pieces {value : F} (h : F64.isFinite value = true) :
    readFloat J (content (floatPieces J.toFloatText value)) = some value := by
  rw [content_of_denotes (denotes_float J h)]
  exact J.ofText_toText value h

theorem readOption_pieces {value : Option F} (h : FiniteOption value) :
    readOption J (content (optionPieces J.toFloatText value)) = some value := by
  cases value with
  | none =>
    rw [optionPieces, content_of_denotes denotes_null_pieces]
    rfl
  | some value =>
    have hfinite := h value rfl
    rw [optionPieces, content_of_denotes (denotes_float J hfinite)]
    show (J.ofText (J.toText value)).map some = some (some value)
    rw [J.ofText_toText value hfinite]
    rfl

theorem WindowGaugeStats.readableFields (stats : WindowGaugeStats F) :
    ReadableFields [("samples", number stats.samples),
      ("mean", floatPieces J.toFloatText stats.mean),
      ("min", floatPieces J.toFloatText stats.min),
      ("max", floatPieces J.toFloatText stats.max)] := by
  refine .of_values ?_ ?_
  · simp only [List.map_cons, List.map_nil]
    decide
  · simp [readable_int, readable_float]

theorem WindowGaugeStats.readable (stats : WindowGaugeStats F) :
    Readable (stats.pieces J.toFloatText) :=
  .of_denotes (denotes_fields (stats.readableFields J))

theorem readStats_pieces {stats : WindowGaugeStats F} (h : stats.Finite) :
    readStats J (content (stats.pieces J.toFloatText)) = some stats := by
  rw [WindowGaugeStats.pieces, content_object (stats.readableFields J)]
  simp [readStats, contents, member, List.lookup_cons, readFloat_pieces J h.mean,
    readFloat_pieces J h.min, readFloat_pieces J h.max]

theorem Metrics.readableFields (metrics : Metrics F) :
    ReadableFields (metrics.jsonFields J.toFloatText) := by
  refine .of_values ?_ ?_
  · simp only [Metrics.jsonFields, List.map_cons, List.map_nil]
    decide
  · simp [Metrics.jsonFields, readable_int, readable_float, readable_option, readable_bool,
      Role.readable, MetricDirection.readable, TransportProtocol.readable]

theorem WindowMetrics.readableFields (metrics : WindowMetrics F) :
    ReadableFields (metrics.jsonFields J.toFloatText) := by
  refine .of_values ?_ ?_
  · simp only [WindowMetrics.jsonFields, List.map_cons, List.map_nil]
    decide
  · simp [WindowMetrics.jsonFields, readable_int, readable_float, readable_option,
      WindowGaugeStats.readable, Role.readable, MetricDirection.readable,
      TransportProtocol.readable]

/-- The members of a record. -/
def recordFields (event : String) (fields : List (String × Pieces)) : List (String × Pieces) :=
  ("schema_version", number jsonlSchemaVersion) :: ("event", quoted event) :: fields

theorem readableFields_record (event : String) (hevent : isReadable event = true)
    {fields : List (String × Pieces)} (h : ReadableFields fields) :
    ReadableFields (recordFields event fields) := by
  intro field hfield
  simp only [recordFields, List.mem_cons] at hfield
  rcases hfield with rfl | rfl | hfield
  · exact ⟨by decide, readable_int _⟩
  · exact ⟨(by decide : isReadable "event" = true), readable_quoted hevent⟩
  · exact h field hfield

theorem readInterval_record {metrics : Metrics F} (h : metrics.Finite) (event : String) :
    readInterval J (contents (recordFields event (metrics.jsonFields J.toFloatText))) =
      some metrics := by
  simp [readInterval, recordFields, contents, Metrics.jsonFields, member, List.lookup_cons,
    readFloat_pieces J h.timestampUnixSeconds, readFloat_pieces J h.transferredBytes,
    readFloat_pieces J h.bandwidthBitsPerSecond, readFloat_pieces J h.intervalDurationSeconds,
    readOption_pieces J h.tcpRetransmits, readOption_pieces J h.tcpRttSeconds,
    readOption_pieces J h.tcpRttvarSeconds, readOption_pieces J h.tcpSndCwndBytes,
    readOption_pieces J h.tcpSndWndBytes, readOption_pieces J h.tcpPmtuBytes,
    readOption_pieces J h.tcpReorderEvents, readOption_pieces J h.udpPackets,
    readOption_pieces J h.udpLostPackets, readOption_pieces J h.udpJitterSeconds,
    readOption_pieces J h.udpOutOfOrderPackets]

theorem readWindow_record {metrics : WindowMetrics F} (h : metrics.Finite) (event : String) :
    readWindow J (contents (recordFields event (metrics.jsonFields J.toFloatText))) =
      some metrics := by
  simp [readWindow, recordFields, contents, WindowMetrics.jsonFields, member, List.lookup_cons,
    readFloat_pieces J h.timestampUnixSeconds, readFloat_pieces J h.durationSeconds,
    readFloat_pieces J h.transferredBytes, readFloat_pieces J h.omittedIntervals,
    readStats_pieces J h.bandwidthBitsPerSecond, readStats_pieces J h.tcpRttSeconds,
    readStats_pieces J h.tcpRttvarSeconds, readStats_pieces J h.tcpSndCwndBytes,
    readStats_pieces J h.tcpSndWndBytes, readStats_pieces J h.tcpPmtuBytes,
    readStats_pieces J h.udpJitterSeconds, readOption_pieces J h.tcpRetransmits,
    readOption_pieces J h.tcpReorderEvents, readOption_pieces J h.udpPackets,
    readOption_pieces J h.udpLostPackets, readOption_pieces J h.udpOutOfOrderPackets]

theorem bytes_eq (pieces : Pieces) : bytes pieces = Text.bytes (.ofList (chars pieces)) := by
  rw [Text.bytes, String.toList_ofList, chars, List.flatMap_assoc]
  rfl

theorem readLine_object {fields : List (String × Pieces)} (h : ReadableFields fields) :
    readLine J (bytes (object fields)) = readEvent J (.object (contents fields)) := by
  rw [readLine, bytes_eq, Text.ofBytes_bytes, Option.bind_some, String.toList_ofList,
    parse_of_denotes (denotes_fields h), Option.bind_some]

theorem readEvent_record {event : String} (hevent : isReadable event = true)
    (fields : List (String × Pieces)) :
    readEvent J (.object (contents (recordFields event fields))) =
      readBody J (contents (recordFields event fields)) event := by
  have hversion : member (contents (recordFields event fields)) "schema_version" readNat =
      some jsonlSchemaVersion := by
    simp [member, contents, recordFields]
  have hevent : member (contents (recordFields event fields)) "event" readText = some event := by
    simp [member, contents, recordFields, List.lookup_cons, content_quoted hevent, readText]
  rw [readEvent, if_pos hversion, hevent, Option.bind_some]

theorem readLine_interval {metrics : Metrics F} (h : metrics.Finite) :
    readLine J (bytes (jsonlEvent "interval" (metrics.jsonFields J.toFloatText))) =
      some (.interval metrics) := by
  have hfields := readableFields_record "interval" (by decide)
    (metrics.readableFields J)
  refine (readLine_object J hfields).trans ?_
  rw [readEvent_record J (by decide)]
  simp [readBody, readInterval_record J h]

theorem readLine_window {metrics : WindowMetrics F} (h : metrics.Finite) :
    readLine J (bytes (jsonlEvent "window" (metrics.jsonFields J.toFloatText))) =
      some (.window metrics) := by
  have hfields := readableFields_record "window" (by decide)
    (metrics.readableFields J)
  refine (readLine_object J hfields).trans ?_
  rw [readEvent_record J (by decide)]
  simp [readBody, readWindow_record J h]

theorem readLine_call {call : SinkCall F} (h : call.metricEvent.Finite) :
    readLine J (bytes (call.pieces J.toFloatText)) = some call.metricEvent := by
  cases call with
  | interval metrics => exact readLine_interval J h
  | window metrics => exact readLine_window J h
  | event event =>
    cases event with
    | interval metrics => exact readLine_interval J h
    | window metrics => exact readLine_window J h

end Fields

section Run

variable {F : Type} [F64 F] (J : JsonFloat F)

theorem readFile_lines {texts : List (List UInt8)} (h : ∀ text ∈ texts, newline ∉ text) :
    readFile J (lines newline texts) = texts.mapM (readLine J) := by
  rw [readFile, splitOn_lines h, if_pos (List.getLast?_concat ..), List.dropLast_concat]

theorem readFile_eq_some {file : List UInt8} {events : List (MetricEvent F)} :
    readFile J file = some events ↔ ∃ texts, file = lines newline texts ∧
      (∀ text ∈ texts, newline ∉ text) ∧ texts.mapM (readLine J) = some events := by
  constructor
  · intro h
    by_cases hlast : (file.splitOn newline).getLast? = some []
    · rw [readFile, if_pos hlast] at h
      refine ⟨_, eq_lines_of_splitOn hlast, fun text htext => ?_, h⟩
      exact SeparatedItems.separator_not_mem (List.dropLast_subset _ htext)
    · rw [readFile, if_neg hlast] at h
      cases h
  · rintro ⟨texts, rfl, hfree, hread⟩
    rwa [readFile_lines J hfree]

/-- A record behind a file that can be read. -/
theorem readFile_append {file record : List UInt8} {events : List (MetricEvent F)}
    {event : MetricEvent F} (h : readFile J file = some events) (hfree : newline ∉ record)
    (hrecord : readLine J record = some event) :
    readFile J (file ++ record ++ [newline]) = some (events ++ [event]) := by
  obtain ⟨texts, rfl, htexts, hread⟩ := (readFile_eq_some J).mp h
  refine (readFile_eq_some J).mpr ⟨texts ++ [record], ?_, ?_, ?_⟩
  · rw [lines_append, lines_singleton, List.append_assoc]
  · intro text htext
    rcases List.mem_append.mp htext with htext | htext
    · exact htexts text htext
    · rwa [List.mem_singleton.mp htext]
  · simp [List.mapM_append, hread, hrecord]

/-- The events of the calls that returned `Ok`. -/
def recordedEvents : List (SinkCall F × AppendEnv) → List (Except Error Unit) →
    List (MetricEvent F)
  | (call, _) :: calls, .ok () :: results => call.metricEvent :: recordedEvents calls results
  | _ :: calls, .error _ :: results => recordedEvents calls results
  | _, _ => []

/-- What has been written can be read: behind the events that were in the file stand those of
the calls that returned `Ok`, in the order of the calls. -/
theorem jsonl_round_trip (sink : JsonlSink) (calls : List (SinkCall F × AppendEnv))
    {file : List UInt8} {before : List (MetricEvent F)} (hfile : readFile J file = some before)
    (hfinite : ∀ c ∈ calls, c.1.metricEvent.Finite)
    (huntorn : ∀ c ∈ calls, ¬ c.2.Torn (c.1.pieces J.toFloatText)) :
    readFile J (sink.run J.toFloatText calls file).2 =
      some (before ++ recordedEvents calls (sink.run J.toFloatText calls file).1) := by
  induction calls generalizing file before with
  | nil => simpa [JsonlSink.run, recordedEvents] using hfile
  | cons c calls ih =>
    obtain ⟨call, env⟩ := c
    have hcall := sink.call_appends J.toFloatText call env file
    have hfinite' := fun c hc => hfinite c (List.mem_cons_of_mem _ hc)
    have huntorn' := fun c hc => huntorn c (List.mem_cons_of_mem _ hc)
    simp only [JsonlSink.run]
    generalize sink.call J.toFloatText call env file = outcome at hcall
    cases hcall with
    | recorded =>
      have hrecord := readLine_call J (hfinite (call, env) List.mem_cons_self)
      have hnext := readFile_append J hfile
        (newline_not_mem_bytes (call.plainPieces J.toFloatText)) hrecord
      rw [ih hnext hfinite' huntorn', recordedEvents, List.append_assoc]
      rfl
    | untouched e => exact ih hfile hfinite' huntorn'
    | torn _ _ htorn => exact absurd htorn (huntorn (call, env) List.mem_cons_self)

attribute [local instance] instF64Nat

/-- Whole numbers, written with the fraction that the serializer gives them. -/
def wholeText : JsonFloat ℕ where
  toText n := toString n ++ ".0"
  plain n := by
    rw [isPlain, String.toList_append, List.all_append, Bool.and_eq_true]
    exact ⟨isPlain_nat n, by decide⟩
  ofText text := (Text.stripSuffix text ".0").map fun digits => Text.decimal digits.toList
  isNumber_toText n _ := by
    rw [String.toList_append]
    exact isNumber_append n (by decide) (by simp)
  ofText_toText n _ := by
    rw [Text.stripSuffix_append, Option.map_some, Text.decimal_toString]

theorem finite_of_nat (event : MetricEvent ℕ) : event.Finite := by
  have hoption (value : Option ℕ) : FiniteOption value := fun _ _ => rfl
  have hstats (stats : WindowGaugeStats ℕ) : stats.Finite := ⟨rfl, rfl, rfl⟩
  cases event with
  | interval metrics =>
    exact ⟨rfl, rfl, rfl, hoption _, hoption _, hoption _, hoption _, hoption _, hoption _,
      hoption _, hoption _, hoption _, hoption _, hoption _, rfl⟩
  | window metrics =>
    exact ⟨rfl, rfl, rfl, hstats _, hstats _, hstats _, hstats _, hstats _, hstats _, hstats _,
      hoption _, hoption _, hoption _, hoption _, hoption _, rfl⟩

/-- The first call finds the lock poisoned, the second records its sample. -/
def skippedCalls : List (SinkCall ℕ × AppendEnv) :=
  [(.interval .default, ⟨true, true, fun _ => .ok⟩),
    (.event (.interval { Metrics.default with streamCount := 3, tcpRetransmits := some 2 }),
      roomyDisk)]

theorem jsonl_round_trip_skipped :
    readFile wholeText ((JsonlSink.mk "m.jsonl").run wholeText.toFloatText skippedCalls []).2 =
      some [.interval { Metrics.default with streamCount := 3, tcpRetransmits := some 2 }] := by
  have hdisk : ∀ k, roomyDisk.write k = .ok := fun _ => rfl
  have hsecond := (JsonlSink.mk "m.jsonl").appendJsonl_ok "interval"
    (Metrics.jsonFields wholeText.toFloatText
      { Metrics.default with streamCount := 3, tcpRetransmits := some 2 }) rfl rfl hdisk []
  have hresults : ((JsonlSink.mk "m.jsonl").run wholeText.toFloatText skippedCalls []).1 =
      [.error ⟨.metricsFile, "metrics JSONL writer lock is poisoned"⟩, .ok ()] := by
    simp only [skippedCalls, JsonlSink.run, JsonlSink.call, JsonlSink.writeEvent,
      JsonlSink.writeInterval, JsonlSink.appendJsonl, if_true] at hsecond ⊢
    rw [hsecond]
  have huntorn : ∀ c ∈ skippedCalls, ¬ c.2.Torn (c.1.pieces wholeText.toFloatText) := by
    intro c hc
    simp only [skippedCalls, List.mem_cons, List.not_mem_nil, or_false] at hc
    rcases hc with rfl | rfl
    · rintro ⟨hlock, -⟩
      cases hlock
    · rintro ⟨-, -, n, -, count, -, hfails, -⟩
      cases hfails
  have hempty : readFile wholeText [] = some [] := rfl
  rw [jsonl_round_trip wholeText (JsonlSink.mk "m.jsonl") skippedCalls hempty
    (fun c _ => finite_of_nat c.1.metricEvent) huntorn, hresults]
  rfl

end Run

end Iperf3Rs
