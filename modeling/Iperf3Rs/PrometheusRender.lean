import Iperf3Rs.Metrics
import Iperf3Rs.PrometheusEncoder

/-! The text of one interval or window snapshot. Every function appends to the text so far, as the
source does; `toText` stands for the `to_string` of `f64`. -/

namespace Iperf3Rs

def metricName (metricPrefix suffix : String) : String := s!"{metricPrefix}_{suffix}"

def pushEscapedLabelValue (out value : String) : String :=
  value.toList.foldl (fun out ch =>
    match ch with
    | '\\' => out ++ "\\\\"
    | '"' => out ++ "\\\""
    | '\n' => out ++ "\\n"
    | ch => out.push ch) out

def pushLabel (out : String) (label : (String × String) × ℕ) : String :=
  let ((name, value), index) := label
  let out := if 0 < index then out.push ',' else out
  (pushEscapedLabelValue (out ++ name ++ "=\"") value).push '"'

def labelSet (labels : List (String × String)) : String :=
  if labels.isEmpty then "" else (labels.zipIdx.foldl pushLabel "\x7b").push '}'

section Gauge

variable {F : Type} (toText : F → String)

def gauge (out name : String) (value : F) (labelSet : String) : String :=
  (out ++ "# TYPE " ++ name ++ " gauge\n" ++ name ++ labelSet).push ' ' ++ toText value |>.push '\n'

def gaugeOption (out name : String) (value : Option F) (labelSet : String) : String :=
  match value with
  | some value => gauge toText out name value labelSet
  | none => out

def gaugeStats (out metricPrefix stem unit : String) (stats : WindowGaugeStats F)
    (labelSet : String) : String :=
  if stats.samples = 0 then out
  else
    let out := gauge toText out (metricName metricPrefix s!"{stem}_mean_{unit}") stats.mean labelSet
    let out := gauge toText out (metricName metricPrefix s!"{stem}_min_{unit}") stats.min labelSet
    gauge toText out (metricName metricPrefix s!"{stem}_max_{unit}") stats.max labelSet

end Gauge

section Render

variable {F : Type} [F64 F] (toText : F → String)

def renderIntervalPrometheusWithLabels (metrics : Metrics F) (metricPrefix : String)
    (labels : List (String × String)) : String :=
  let set := labelSet labels
  let name := metricName metricPrefix
  let out := gauge toText "" (name "transferred_bytes") metrics.transferredBytes set
  let out := gauge toText out (name "bandwidth_bits_per_second") metrics.bandwidthBitsPerSecond set
  let out := gauge toText out (name "stream_count") (metrics.streamCount : F) set
  let out := gaugeOption toText out (name "tcp_retransmits") metrics.tcpRetransmits set
  let out := gaugeOption toText out (name "tcp_rtt_seconds") metrics.tcpRttSeconds set
  let out := gaugeOption toText out (name "tcp_rttvar_seconds") metrics.tcpRttvarSeconds set
  let out := gaugeOption toText out (name "tcp_snd_cwnd_bytes") metrics.tcpSndCwndBytes set
  let out := gaugeOption toText out (name "tcp_snd_wnd_bytes") metrics.tcpSndWndBytes set
  let out := gaugeOption toText out (name "tcp_pmtu_bytes") metrics.tcpPmtuBytes set
  let out := gaugeOption toText out (name "tcp_reorder_events") metrics.tcpReorderEvents set
  let out := gaugeOption toText out (name "udp_packets") metrics.udpPackets set
  let out := gaugeOption toText out (name "udp_lost_packets") metrics.udpLostPackets set
  let out := gaugeOption toText out (name "udp_jitter_seconds") metrics.udpJitterSeconds set
  let out := gaugeOption toText out (name "udp_out_of_order_packets") metrics.udpOutOfOrderPackets set
  gauge toText out (name "omitted_intervals") (if metrics.omitted then 1 else 0) set

def renderWindowPrometheusWithLabels (metrics : WindowMetrics F) (metricPrefix : String)
    (labels : List (String × String)) : String :=
  let set := labelSet labels
  let name := metricName metricPrefix
  let out := gauge toText "" (name "window_duration_seconds") metrics.durationSeconds set
  let out := gauge toText out (name "window_transferred_bytes") metrics.transferredBytes set
  let out := gauge toText out (name "window_stream_count") (metrics.streamCount : F) set
  let out := gaugeStats toText out metricPrefix "window_bandwidth" "bits_per_second"
    metrics.bandwidthBitsPerSecond set
  let out := gaugeStats toText out metricPrefix "window_tcp_rtt" "seconds" metrics.tcpRttSeconds set
  let out := gaugeStats toText out metricPrefix "window_tcp_rttvar" "seconds"
    metrics.tcpRttvarSeconds set
  let out := gaugeStats toText out metricPrefix "window_tcp_snd_cwnd" "bytes"
    metrics.tcpSndCwndBytes set
  let out := gaugeStats toText out metricPrefix "window_tcp_snd_wnd" "bytes"
    metrics.tcpSndWndBytes set
  let out := gaugeStats toText out metricPrefix "window_tcp_pmtu" "bytes" metrics.tcpPmtuBytes set
  let out := gaugeStats toText out metricPrefix "window_udp_jitter" "seconds"
    metrics.udpJitterSeconds set
  let out := gaugeOption toText out (name "window_tcp_retransmits") metrics.tcpRetransmits set
  let out := gaugeOption toText out (name "window_tcp_reorder_events") metrics.tcpReorderEvents set
  let out := gaugeOption toText out (name "window_udp_packets") metrics.udpPackets set
  let out := gaugeOption toText out (name "window_udp_lost_packets") metrics.udpLostPackets set
  let out := gaugeOption toText out (name "window_udp_out_of_order_packets")
    metrics.udpOutOfOrderPackets set
  gauge toText out (name "window_omitted_intervals") metrics.omittedIntervals set

def PrometheusEncoder.encodeInterval (encoder : PrometheusEncoder) (metrics : Metrics F) : String :=
  renderIntervalPrometheusWithLabels toText metrics encoder.metricPrefix encoder.labels

def PrometheusEncoder.encodeWindow (encoder : PrometheusEncoder) (metrics : WindowMetrics F) :
    String :=
  renderWindowPrometheusWithLabels toText metrics encoder.metricPrefix encoder.labels

end Render

section Fields

variable {F : Type}

/-- A metric name behind the prefix, and its value if the snapshot has one. -/
abbrev Field (F : Type) := String × Option F

def statsFields (stem unit : String) (stats : WindowGaugeStats F) : List (Field F) :=
  let present (value : F) := if 0 < stats.samples then some value else none
  [(s!"{stem}_mean_{unit}", present stats.mean), (s!"{stem}_min_{unit}", present stats.min),
    (s!"{stem}_max_{unit}", present stats.max)]

variable [F64 F]

def intervalFields (metrics : Metrics F) : List (Field F) :=
  [("transferred_bytes", some metrics.transferredBytes),
    ("bandwidth_bits_per_second", some metrics.bandwidthBitsPerSecond),
    ("stream_count", some (metrics.streamCount : F)),
    ("tcp_retransmits", metrics.tcpRetransmits),
    ("tcp_rtt_seconds", metrics.tcpRttSeconds),
    ("tcp_rttvar_seconds", metrics.tcpRttvarSeconds),
    ("tcp_snd_cwnd_bytes", metrics.tcpSndCwndBytes),
    ("tcp_snd_wnd_bytes", metrics.tcpSndWndBytes),
    ("tcp_pmtu_bytes", metrics.tcpPmtuBytes),
    ("tcp_reorder_events", metrics.tcpReorderEvents),
    ("udp_packets", metrics.udpPackets),
    ("udp_lost_packets", metrics.udpLostPackets),
    ("udp_jitter_seconds", metrics.udpJitterSeconds),
    ("udp_out_of_order_packets", metrics.udpOutOfOrderPackets),
    ("omitted_intervals", some (if metrics.omitted then 1 else 0))]

def windowFields (metrics : WindowMetrics F) : List (Field F) :=
  [("window_duration_seconds", some metrics.durationSeconds),
    ("window_transferred_bytes", some metrics.transferredBytes),
    ("window_stream_count", some (metrics.streamCount : F))] ++
  statsFields "window_bandwidth" "bits_per_second" metrics.bandwidthBitsPerSecond ++
  statsFields "window_tcp_rtt" "seconds" metrics.tcpRttSeconds ++
  statsFields "window_tcp_rttvar" "seconds" metrics.tcpRttvarSeconds ++
  statsFields "window_tcp_snd_cwnd" "bytes" metrics.tcpSndCwndBytes ++
  statsFields "window_tcp_snd_wnd" "bytes" metrics.tcpSndWndBytes ++
  statsFields "window_tcp_pmtu" "bytes" metrics.tcpPmtuBytes ++
  statsFields "window_udp_jitter" "seconds" metrics.udpJitterSeconds ++
  [("window_tcp_retransmits", metrics.tcpRetransmits),
    ("window_tcp_reorder_events", metrics.tcpReorderEvents),
    ("window_udp_packets", metrics.udpPackets),
    ("window_udp_lost_packets", metrics.udpLostPackets),
    ("window_udp_out_of_order_packets", metrics.udpOutOfOrderPackets),
    ("window_omitted_intervals", some metrics.omittedIntervals)]

end Fields

section Push

variable {F : Type} (toText : F → String) (metricPrefix : String)
  (labels : List (String × String))

def pushField (out : String) (field : Field F) : String :=
  gaugeOption toText out (metricName metricPrefix field.1) field.2 (labelSet labels)

theorem gaugeStats_eq (out stem unit : String) (stats : WindowGaugeStats F) :
    gaugeStats toText out metricPrefix stem unit stats (labelSet labels) =
      (statsFields stem unit stats).foldl (pushField toText metricPrefix labels) out := by
  by_cases hzero : stats.samples = 0
  · simp [gaugeStats, statsFields, pushField, gaugeOption, hzero]
  · have hpos : 0 < stats.samples := by omega
    simp [gaugeStats, statsFields, pushField, gaugeOption, hzero, hpos]

variable [F64 F]

theorem renderInterval_eq (metrics : Metrics F) :
    renderIntervalPrometheusWithLabels toText metrics metricPrefix labels =
      (intervalFields metrics).foldl (pushField toText metricPrefix labels) "" := rfl

theorem renderWindow_eq (metrics : WindowMetrics F) :
    renderWindowPrometheusWithLabels toText metrics metricPrefix labels =
      (windowFields metrics).foldl (pushField toText metricPrefix labels) "" := by
  simp only [renderWindowPrometheusWithLabels, windowFields, List.foldl_append, gaugeStats_eq]
  rfl

end Push

end Iperf3Rs
