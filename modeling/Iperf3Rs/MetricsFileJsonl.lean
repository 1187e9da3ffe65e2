import Iperf3Rs.JsonText
import Iperf3Rs.LineText
import Iperf3Rs.Metrics

/-! `append_jsonl`, record by record. The serializer writes to the file without a buffer, so that
a record is many writes, and any of them may fail after some of its bytes have reached the file. -/

namespace Iperf3Rs

open JsonText

/-- How the serializer writes a finite number. -/
structure FloatText (F : Type) where
  toText : F → String
  plain : ∀ value, isPlain (toText value) = true

def Role.pieces : Role → Pieces
  | .client => quoted "Client"
  | .server => quoted "Server"
  | .unknown value => object [("Unknown", number value.toInt)]

def MetricDirection.pieces : MetricDirection → Pieces
  | .unknown => quoted "Unknown"
  | .sender => quoted "Sender"
  | .receiver => quoted "Receiver"
  | .other value => object [("Other", number value.toInt)]

def TransportProtocol.pieces : TransportProtocol → Pieces
  | .unknown => quoted "Unknown"
  | .tcp => quoted "Tcp"
  | .udp => quoted "Udp"
  | .sctp => quoted "Sctp"
  | .other value => object [("Other", number value.toInt)]

def boolPieces (value : Bool) : Pieces := [if value then "true" else "false"]

section Fields

variable {F : Type} [F64 F] (T : FloatText F)

def floatPieces (value : F) : Pieces := if F64.isFinite value then [T.toText value] else null

def optionPieces (value : Option F) : Pieces :=
  match value with
  | some value => floatPieces T value
  | none => null

def WindowGaugeStats.pieces (stats : WindowGaugeStats F) : Pieces :=
  object [("samples", number stats.samples), ("mean", floatPieces T stats.mean),
    ("min", floatPieces T stats.min), ("max", floatPieces T stats.max)]

def Metrics.jsonFields (metrics : Metrics F) : List (String × Pieces) :=
  [("timestamp_unix_seconds", floatPieces T metrics.timestampUnixSeconds),
    ("role", metrics.role.pieces),
    ("direction", metrics.direction.pieces),
    ("stream_count", number metrics.streamCount),
    ("protocol", metrics.protocol.pieces),
    ("transferred_bytes", floatPieces T metrics.transferredBytes),
    ("bandwidth_bits_per_second", floatPieces T metrics.bandwidthBitsPerSecond),
    ("tcp_retransmits", optionPieces T metrics.tcpRetransmits),
    ("tcp_rtt_seconds", optionPieces T metrics.tcpRttSeconds),
    ("tcp_rttvar_seconds", optionPieces T metrics.tcpRttvarSeconds),
    ("tcp_snd_cwnd_bytes", optionPieces T metrics.tcpSndCwndBytes),
    ("tcp_snd_wnd_bytes", optionPieces T metrics.tcpSndWndBytes),
    ("tcp_pmtu_bytes", optionPieces T metrics.tcpPmtuBytes),
    ("tcp_reorder_events", optionPieces T metrics.tcpReorderEvents),
    ("udp_packets", optionPieces T metrics.udpPackets),
    ("udp_lost_packets", optionPieces T metrics.udpLostPackets),
    ("udp_jitter_seconds", optionPieces T metrics.udpJitterSeconds),
    ("udp_out_of_order_packets", optionPieces T metrics.udpOutOfOrderPackets),
    ("interval_duration_seconds", floatPieces T metrics.intervalDurationSeconds),
    ("omitted", boolPieces metrics.omitted)]

def WindowMetrics.jsonFields (metrics : WindowMetrics F) : List (String × Pieces) :=
  [("timestamp_unix_seconds", floatPieces T metrics.timestampUnixSeconds),
    ("role", metrics.role.pieces),
    ("direction", metrics.direction.pieces),
    ("stream_count", number metrics.streamCount),
    ("protocol", metrics.protocol.pieces),
    ("duration_seconds", floatPieces T metrics.durationSeconds),
    ("transferred_bytes", floatPieces T metrics.transferredBytes),
    ("bandwidth_bits_per_second", metrics.bandwidthBitsPerSecond.pieces T),
    ("tcp_rtt_seconds", metrics.tcpRttSeconds.pieces T),
    ("tcp_rttvar_seconds", metrics.tcpRttvarSeconds.pieces T),
    ("tcp_snd_cwnd_bytes", metrics.tcpSndCwndBytes.pieces T),
    ("tcp_snd_wnd_bytes", metrics.tcpSndWndBytes.pieces T),
    ("tcp_pmtu_bytes", metrics.tcpPmtuBytes.pieces T),
    ("udp_jitter_seconds", metrics.udpJitterSeconds.pieces T),
    ("tcp_retransmits", optionPieces T metrics.tcpRetransmits),
    ("tcp_reorder_events", optionPieces T metrics.tcpReorderEvents),
    ("udp_packets", optionPieces T metrics.udpPackets),
    ("udp_lost_packets", optionPieces T metrics.udpLostPackets),
    ("udp_out_of_order_packets", optionPieces T metrics.udpOutOfOrderPackets),
    ("omitted_intervals", floatPieces T metrics.omittedIntervals)]

end Fields

def jsonlSchemaVersion : ℕ := 1

def jsonlEvent (event : String) (fields : List (String × Pieces)) : Pieces :=
  object (("schema_version", number jsonlSchemaVersion) :: ("event", quoted event) :: fields)

/-- How one `write_all` ends. A failed one has taken `count` bytes, or all if there are fewer. -/
inductive WriteAll where
  | ok
  | fails (count : ℕ)
  deriving DecidableEq

/-- What a call of `append_jsonl` meets: a poisoned lock, a failing open, failing writes. -/
structure AppendEnv where
  lockPoisoned : Bool
  opens : Bool
  write : ℕ → WriteAll

def fileError (message path : String) : Error := ⟨.metricsFile, s!"{message}: {path}"⟩

/-- The writes of the serializer, one for each piece, up to the first that fails. -/
def toWriter (write : ℕ → WriteAll) : List (List UInt8) → List UInt8 → Bool × List UInt8
  | [], file => (true, file)
  | piece :: pieces, file =>
    match write 0 with
    | .ok => toWriter (fun k => write (k + 1)) pieces (file ++ piece)
    | .fails count => (false, file ++ piece.take count)

/-- A metrics file in the JSONL format. -/
structure JsonlSink where
  path : String

/-- The file is open for appending. The lock serializes the calls through the sink and its
clones. -/
def JsonlSink.appendJsonl (sink : JsonlSink) (event : String) (fields : List (String × Pieces))
    (env : AppendEnv) (file : List UInt8) : Except Error Unit × List UInt8 :=
  let pieces := (jsonlEvent event fields).map Text.bytes
  if env.lockPoisoned then (.error ⟨.metricsFile, "metrics JSONL writer lock is poisoned"⟩, file)
  else if !env.opens then (.error (fileError "failed to open metrics file" sink.path), file)
  else
    match toWriter env.write pieces file with
    | (false, file) => (.error ⟨.metricsFile, "failed to encode metrics JSON"⟩, file)
    | (true, file) =>
      match env.write pieces.length with
      | .ok => (.ok (), file ++ [newline])
      | .fails count =>
        (.error (fileError "failed to write metrics file" sink.path),
          file ++ [newline].take count)

section Calls

variable {F : Type} [F64 F] (T : FloatText F)

def JsonlSink.writeInterval (sink : JsonlSink) (metrics : Metrics F) :
    AppendEnv → List UInt8 → Except Error Unit × List UInt8 :=
  sink.appendJsonl "interval" (metrics.jsonFields T)

def JsonlSink.writeWindow (sink : JsonlSink) (metrics : WindowMetrics F) :
    AppendEnv → List UInt8 → Except Error Unit × List UInt8 :=
  sink.appendJsonl "window" (metrics.jsonFields T)

def JsonlSink.writeEvent (sink : JsonlSink) (event : MetricEvent F) :
    AppendEnv → List UInt8 → Except Error Unit × List UInt8 :=
  match event with
  | .interval metrics => sink.writeInterval T metrics
  | .window metrics => sink.writeWindow T metrics

inductive SinkCall (F : Type) where
  | interval (metrics : Metrics F)
  | window (metrics : WindowMetrics F)
  | event (event : MetricEvent F)

def JsonlSink.call (sink : JsonlSink) : SinkCall F → AppendEnv → List UInt8 →
    Except Error Unit × List UInt8
  | .interval metrics => sink.writeInterval T metrics
  | .window metrics => sink.writeWindow T metrics
  | .event event => sink.writeEvent T event

/-- The results of a sequence of calls, and the file behind the last of them. -/
def JsonlSink.run (sink : JsonlSink) : List (SinkCall F × AppendEnv) → List UInt8 →
    List (Except Error Unit) × List UInt8
  | [], file => ([], file)
  | (call, env) :: rest, file =>
    let (result, file) := sink.call T call env file
    let (results, file) := sink.run rest file
    (result :: results, file)

end Calls

end Iperf3Rs
