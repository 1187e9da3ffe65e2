import Iperf3Rs.ExactF64
import Iperf3Rs.MetricsQueue

/-! `iperf3rs_emit_interval_metrics` and `metrics_callback`. An interval of a test becomes at most
one call of the native callback, which hands one sample to the queue of the test. An `int` is an
integer without bound, as it counts streams or is passed on as it is; quotients are taken in
`ExactF64`, where a zero divisor shows. -/

namespace Iperf3Rs

open ExactF64 (finite)

inductive IperfMode where
  | sender
  | receiver
  | bidirectional
  deriving DecidableEq

def IperfMode.toInt : IperfMode → ℤ
  | .sender => 1
  | .receiver => 0
  | .bidirectional => -1

inductive ProtocolId where
  | tcp
  | udp
  | sctp
  | other (id : ℤ)
  deriving DecidableEq

/-- The number that the callback gets for a protocol. -/
def ProtocolId.callbackValue : ProtocolId → ℤ
  | .tcp => 1
  | .udp => 2
  | .sctp => 3
  | .other _ => 0

structure IntervalResults where
  bytesTransferred : ℕ
  intervalDuration : ℚ
  omitted : ℤ
  intervalRetrans : ℤ
  rtt : ℤ
  rttvar : ℤ
  sndCwnd : ℤ
  sndWnd : ℤ
  pmtu : ℤ
  intervalPacketCount : ℤ
  intervalCntError : ℤ
  intervalOutoforderPackets : ℤ
  jitter : ℚ

/-- A stream and the last of its interval results, if it has any. -/
structure IperfStream where
  sender : Bool
  lastInterval : Option IntervalResults

structure IperfTest where
  address : ℕ
  role : Char
  mode : IperfMode
  protocol : ProtocolId
  senderHasRetransmits : ℤ
  statsInterval : ℚ
  streams : List IperfStream

/-- `interval_reorder_events` and `interval_reorder_available`, which the statistics callback
leaves for the reporter callback that follows it. -/
structure IntervalReorder where
  events : ℚ
  available : ℤ
  deriving DecidableEq

/-- The parameters of `iperf3rs_metrics_callback` after the test, in their order. -/
structure MetricsCallbackArgs where
  bytes : ExactF64
  bitsPerSecond : ExactF64
  tcpRetransmits : ExactF64
  tcpRttSeconds : ExactF64
  tcpRttvarSeconds : ExactF64
  tcpSndCwndBytes : ExactF64
  tcpSndWndBytes : ExactF64
  tcpPmtuBytes : ExactF64
  tcpReorderEvents : ExactF64
  udpPackets : ExactF64
  udpLostPackets : ExactF64
  udpJitterSeconds : ExactF64
  udpOutOfOrderPackets : ExactF64
  intervalDurationSeconds : ExactF64
  omitted : ExactF64
  protocol : ℤ
  direction : ℤ
  streamCount : ℤ
  tcpRetransmitsAvailable : ℤ
  tcpRttSecondsAvailable : ℤ
  tcpRttvarSecondsAvailable : ℤ
  tcpSndCwndBytesAvailable : ℤ
  tcpSndWndBytesAvailable : ℤ
  tcpPmtuBytesAvailable : ℤ
  tcpReorderEventsAvailable : ℤ
  udpPacketsAvailable : ℤ
  udpLostPacketsAvailable : ℤ
  udpJitterSecondsAvailable : ℤ
  udpOutOfOrderPacketsAvailable : ℤ

/-- A callback gets the address of the test and changes the world it runs in. -/
abbrev MetricsCallback (σ : Type*) := ℕ → MetricsCallbackArgs → σ → σ

def streamMustBeSender (test : IperfTest) : ℤ :=
  if test.mode = .bidirectional then (if test.role = 'c' then 1 else 0)
  else test.mode.toInt * test.mode.toInt

/-- The new sum, and whether the value was added to it. -/
def addNonnegative (sum : ℚ) (value : ℤ) : ℚ × ℤ :=
  if value < 0 then (sum, 0) else (sum + value, 1)

/-- A sum and the number of streams that contributed to it. -/
structure Reports where
  sum : ℚ
  count : ℤ

namespace Reports

def zero : Reports := ⟨0, 0⟩

def addNonnegative (r : Reports) (value : ℤ) : Reports :=
  let (sum, added) := Iperf3Rs.addNonnegative r.sum value
  ⟨sum, r.count + added⟩

def addPositive (r : Reports) (value : ℤ) : Reports :=
  if value > 0 then ⟨r.sum + value, r.count + 1⟩ else r

/-- The availability flag and the average of a gauge in its own unit, -/
def average (r : Reports) : ℤ × ExactF64 :=
  if r.count > 0 then (1, finite r.sum / finite r.count) else (0, finite r.sum)

/-- and of one in microseconds. -/
def averageSeconds (r : Reports) : ℤ × ExactF64 :=
  if r.count > 0 then (1, finite r.sum / finite r.count / finite 1000000) else (0, finite r.sum)

end Reports

structure TcpTotals where
  retransmitsAvailable : ℤ
  retransmits : ℚ
  rtt : Reports
  rttvar : Reports
  sndCwnd : Reports
  sndWnd : Reports
  pmtu : Reports

def TcpTotals.zero : TcpTotals := ⟨0, 0, .zero, .zero, .zero, .zero, .zero⟩

def TcpTotals.add (t : TcpTotals) (interval : IntervalResults) : TcpTotals where
  retransmitsAvailable := 1
  retransmits := t.retransmits + interval.intervalRetrans
  rtt := t.rtt.addNonnegative interval.rtt
  rttvar := t.rttvar.addNonnegative interval.rttvar
  sndCwnd := t.sndCwnd.addPositive interval.sndCwnd
  sndWnd := t.sndWnd.addPositive interval.sndWnd
  pmtu := t.pmtu.addNonnegative interval.pmtu

structure UdpTotals where
  packetsAvailable : ℤ
  lostPacketsAvailable : ℤ
  outOfOrderPacketsAvailable : ℤ
  packets : ℚ
  lostPackets : ℚ
  outOfOrderPackets : ℚ
  jitterAvailable : ℤ
  jitter : ℚ

def UdpTotals.zero : UdpTotals := ⟨0, 0, 0, 0, 0, 0, 0, 0⟩

def UdpTotals.add (t : UdpTotals) (mustBeSender : ℤ) (interval : IntervalResults) :
    UdpTotals where
  packetsAvailable := 1
  lostPacketsAvailable := 1
  outOfOrderPacketsAvailable := 1
  packets := t.packets + interval.intervalPacketCount
  lostPackets := t.lostPackets + interval.intervalCntError
  outOfOrderPackets := t.outOfOrderPackets + interval.intervalOutoforderPackets
  jitterAvailable := if mustBeSender = 0 then 1 else t.jitterAvailable
  jitter := if mustBeSender = 0 then t.jitter + interval.jitter else t.jitter

/-- What the loop over the streams accumulates. -/
structure IntervalTotals where
  intervalOk : ℤ
  bytes : ℚ
  omitted : ℚ
  tcp : TcpTotals
  udp : UdpTotals
  intervalDuration : ℚ
  matchedStreams : ℤ

namespace IntervalTotals

def zero : IntervalTotals := ⟨0, 0, 0, .zero, .zero, 0, 0⟩

/-- The body of the loop for a stream that is not skipped. TCP values are only meaningful on the
sending stream, jitter on the receiving one. -/
def add (test : IperfTest) (mustBeSender : ℤ) (a : IntervalTotals) (interval : IntervalResults) :
    IntervalTotals where
  intervalOk :=
    if interval.intervalDuration ≥ test.statsInterval * (1 / 10) ∨ interval.bytesTransferred > 0
    then 1 else a.intervalOk
  bytes := a.bytes + interval.bytesTransferred
  omitted := if interval.omitted ≠ 0 then 1 else a.omitted
  tcp :=
    match test.protocol with
    | .tcp => if test.senderHasRetransmits = 1 ∧ mustBeSender ≠ 0 then a.tcp.add interval else a.tcp
    | _ => a.tcp
  udp :=
    match test.protocol with
    | .udp => a.udp.add mustBeSender interval
    | _ => a.udp
  intervalDuration :=
    if a.matchedStreams = 0 then interval.intervalDuration else a.intervalDuration
  matchedStreams := a.matchedStreams + 1

def visit (test : IperfTest) (mustBeSender : ℤ) (a : IntervalTotals) (stream : IperfStream) :
    IntervalTotals :=
  if stream.sender.toInt ≠ mustBeSender then a
  else
    match stream.lastInterval with
    | none => a
    | some interval => a.add test mustBeSender interval

/-- The arguments of the callback, in the order of the call. -/
def callbackArgs (reorder : IntervalReorder) (test : IperfTest) (mustBeSender : ℤ)
    (a : IntervalTotals) : MetricsCallbackArgs :=
  let direction := if mustBeSender ≠ 0 then 1 else 2
  let bandwidthBitsPerSecond :=
    if a.intervalDuration > 0 then finite (a.bytes * 8) / finite a.intervalDuration else finite 0
  let udpJitterSeconds :=
    if test.protocol = .udp ∧ mustBeSender = 0 then finite a.udp.jitter / finite a.matchedStreams
    else finite a.udp.jitter
  let (tcpRttSecondsAvailable, tcpRttSeconds) := a.tcp.rtt.averageSeconds
  let (tcpRttvarSecondsAvailable, tcpRttvarSeconds) := a.tcp.rttvar.averageSeconds
  let (tcpSndCwndBytesAvailable, tcpSndCwndBytes) := a.tcp.sndCwnd.average
  let (tcpSndWndBytesAvailable, tcpSndWndBytes) := a.tcp.sndWnd.average
  let (tcpPmtuBytesAvailable, tcpPmtuBytes) := a.tcp.pmtu.average
  ⟨finite a.bytes,
    bandwidthBitsPerSecond,
    finite a.tcp.retransmits,
    tcpRttSeconds,
    tcpRttvarSeconds,
    tcpSndCwndBytes,
    tcpSndWndBytes,
    tcpPmtuBytes,
    finite reorder.events,
    finite a.udp.packets,
    finite a.udp.lostPackets,
    udpJitterSeconds,
    finite a.udp.outOfOrderPackets,
    finite a.intervalDuration,
    finite a.omitted,
    test.protocol.callbackValue,
    direction,
    a.matchedStreams,
    a.tcp.retransmitsAvailable,
    tcpRttSecondsAvailable,
    tcpRttvarSecondsAvailable,
    tcpSndCwndBytesAvailable,
    tcpSndWndBytesAvailable,
    tcpPmtuBytesAvailable,
    reorder.available,
    a.udp.packetsAvailable,
    a.udp.lostPacketsAvailable,
    a.udp.jitterAvailable,
    a.udp.outOfOrderPacketsAvailable⟩

end IntervalTotals

def emitIntervalMetrics {σ : Type*} (callback : Option (MetricsCallback σ))
    (reorder : IntervalReorder) (test : IperfTest) (s : σ) : σ :=
  match callback with
  | none => s
  | some callback =>
    let mustBeSender := streamMustBeSender test
    let a := test.streams.foldl (IntervalTotals.visit test mustBeSender) .zero
    if a.intervalOk = 0 ∨ a.matchedStreams = 0 then s
    else callback test.address (a.callbackArgs reorder test mustBeSender) s

def TransportProtocol.fromCallbackValue : ℤ → TransportProtocol
  | 1 => .tcp
  | 2 => .udp
  | 3 => .sctp
  | 0 => .unknown
  | value => .other (.ofInt value)

def MetricDirection.fromCallbackValue : ℤ → MetricDirection
  | 1 => .sender
  | 2 => .receiver
  | 0 => .unknown
  | value => .other (.ofInt value)

def available (flag : ℤ) (value : ExactF64) : Option ExactF64 :=
  if flag ≠ 0 then some value else none

def nonnegativeUsize (value : ℤ) : ℕ := value.toNat

structure CallbackTarget where
  link : Link (Metrics ExactF64)
  role : Role

/-- The registered targets, and whether a panic has poisoned the lock on them. -/
structure Callbacks where
  poisoned : Bool
  targets : ℕ → Option CallbackTarget

def CallbackTarget.enqueue (target : CallbackTarget) (metrics : Metrics ExactF64) :
    CallbackTarget :=
  { target with
    link := { target.link with
      chan := enqueueLatest target.link.latest target.link.chan metrics
      offered := target.link.offered ++ [metrics] } }

def Callbacks.set (s : Callbacks) (test : ℕ) (target : CallbackTarget) : Callbacks :=
  { s with targets := Function.update s.targets test (some target) }

/-- `metrics_callback`, at the time `now` on the system clock. -/
def metricsCallback (now : ExactF64) : MetricsCallback Callbacks :=
  fun test
    ⟨transferredBytes,
      bandwidthBitsPerSecond,
      tcpRetransmits,
      tcpRttSeconds,
      tcpRttvarSeconds,
      tcpSndCwndBytes,
      tcpSndWndBytes,
      tcpPmtuBytes,
      tcpReorderEvents,
      udpPackets,
      udpLostPackets,
      udpJitterSeconds,
      udpOutOfOrderPackets,
      intervalDurationSeconds,
      omitted,
      protocol,
      direction,
      streamCount,
      tcpRetransmitsAvailable,
      tcpRttSecondsAvailable,
      tcpRttvarSecondsAvailable,
      tcpSndCwndBytesAvailable,
      tcpSndWndBytesAvailable,
      tcpPmtuBytesAvailable,
      tcpReorderEventsAvailable,
      udpPacketsAvailable,
      udpLostPacketsAvailable,
      udpJitterSecondsAvailable,
      udpOutOfOrderPacketsAvailable⟩ s =>
  if test = 0 ∨ s.poisoned = true then s
  else
    match s.targets test with
    | none => s
    | some target =>
      s.set test <| target.enqueue
        { timestampUnixSeconds := now
          role := target.role
          direction := .fromCallbackValue direction
          streamCount := nonnegativeUsize streamCount
          protocol := .fromCallbackValue protocol
          transferredBytes := transferredBytes
          bandwidthBitsPerSecond := bandwidthBitsPerSecond
          tcpRetransmits := available tcpRetransmitsAvailable tcpRetransmits
          tcpRttSeconds := available tcpRttSecondsAvailable tcpRttSeconds
          tcpRttvarSeconds := available tcpRttvarSecondsAvailable tcpRttvarSeconds
          tcpSndCwndBytes := available tcpSndCwndBytesAvailable tcpSndCwndBytes
          tcpSndWndBytes := available tcpSndWndBytesAvailable tcpSndWndBytes
          tcpPmtuBytes := available tcpPmtuBytesAvailable tcpPmtuBytes
          tcpReorderEvents := available tcpReorderEventsAvailable tcpReorderEvents
          udpPackets := available udpPacketsAvailable udpPackets
          udpLostPackets := available udpLostPacketsAvailable udpLostPackets
          udpJitterSeconds := available udpJitterSecondsAvailable udpJitterSeconds
          udpOutOfOrderPackets := available udpOutOfOrderPacketsAvailable udpOutOfOrderPackets
          intervalDurationSeconds := intervalDurationSeconds
          omitted := decide (omitted ≠ finite 0) }

end Iperf3Rs
