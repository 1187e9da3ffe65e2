import Iperf3Rs.Clock
import Mathlib.Algebra.Group.Defs
import Mathlib.Data.Nat.Cast.Defs

/-! Interval samples, window summaries and `aggregate_window`. The number type stands for
`f64` and stays abstract: only the operations the code performs are assumed. -/

namespace Iperf3Rs

class F64 (F : Type) extends Zero F, One F, Add F, Mul F, Div F, Min F, Max F, NatCast F where
  isFinite : F → Bool
  lt : F → F → Bool

inductive Role where
  | client
  | server
  | unknown (value : Int8)
  deriving DecidableEq

inductive TransportProtocol where
  | unknown
  | tcp
  | udp
  | sctp
  | other (value : Int32)
  deriving DecidableEq

inductive MetricDirection where
  | unknown
  | sender
  | receiver
  | other (value : Int32)
  deriving DecidableEq

structure Metrics (F : Type) where
  timestampUnixSeconds : F
  role : Role
  direction : MetricDirection
  streamCount : ℕ
  protocol : TransportProtocol
  transferredBytes : F
  bandwidthBitsPerSecond : F
  tcpRetransmits : Option F
  tcpRttSeconds : Option F
  tcpRttvarSeconds : Option F
  tcpSndCwndBytes : Option F
  tcpSndWndBytes : Option F
  tcpPmtuBytes : Option F
  tcpReorderEvents : Option F
  udpPackets : Option F
  udpLostPackets : Option F
  udpJitterSeconds : Option F
  udpOutOfOrderPackets : Option F
  intervalDurationSeconds : F
  omitted : Bool
  deriving DecidableEq

structure WindowGaugeStats (F : Type) where
  samples : ℕ
  mean : F
  min : F
  max : F
  deriving DecidableEq

structure WindowMetrics (F : Type) where
  timestampUnixSeconds : F
  role : Role
  direction : MetricDirection
  streamCount : ℕ
  protocol : TransportProtocol
  durationSeconds : F
  transferredBytes : F
  bandwidthBitsPerSecond : WindowGaugeStats F
  tcpRttSeconds : WindowGaugeStats F
  tcpRttvarSeconds : WindowGaugeStats F
  tcpSndCwndBytes : WindowGaugeStats F
  tcpSndWndBytes : WindowGaugeStats F
  tcpPmtuBytes : WindowGaugeStats F
  udpJitterSeconds : WindowGaugeStats F
  tcpRetransmits : Option F
  tcpReorderEvents : Option F
  udpPackets : Option F
  udpLostPackets : Option F
  udpOutOfOrderPackets : Option F
  omittedIntervals : F
  deriving DecidableEq

inductive MetricEvent (F : Type) where
  | interval (metrics : Metrics F)
  | window (metrics : WindowMetrics F)
  deriving DecidableEq

variable {F : Type} [F64 F]

def Metrics.default : Metrics F where
  timestampUnixSeconds := 0
  role := .unknown 0
  direction := .unknown
  streamCount := 0
  protocol := .unknown
  transferredBytes := 0
  bandwidthBitsPerSecond := 0
  tcpRetransmits := none
  tcpRttSeconds := none
  tcpRttvarSeconds := none
  tcpSndCwndBytes := none
  tcpSndWndBytes := none
  tcpPmtuBytes := none
  tcpReorderEvents := none
  udpPackets := none
  udpLostPackets := none
  udpJitterSeconds := none
  udpOutOfOrderPackets := none
  intervalDurationSeconds := 0
  omitted := false

def WindowGaugeStats.default : WindowGaugeStats F := ⟨0, 0, 0, 0⟩

structure GaugeAccumulator (F : Type) where
  count : ℕ
  sum : F
  min : F
  max : F

def GaugeAccumulator.default : GaugeAccumulator F := ⟨0, 0, 0, 0⟩

def GaugeAccumulator.observe (g : GaugeAccumulator F) (value : F) : GaugeAccumulator F :=
  if F64.isFinite value then
    { count := g.count + 1
      sum := g.sum + value
      min := if g.count = 0 then value else Min.min g.min value
      max := if g.count = 0 then value else Max.max g.max value }
  else g

def GaugeAccumulator.observeOption (g : GaugeAccumulator F) (value : Option F) :
    GaugeAccumulator F :=
  match value with
  | some value => g.observe value
  | none => g

def GaugeAccumulator.finish (g : GaugeAccumulator F) : WindowGaugeStats F :=
  if g.count = 0 then .default
  else { samples := g.count, mean := g.sum / (g.count : F), min := g.min, max := g.max }

def GaugeAccumulator.finishWithMean (g : GaugeAccumulator F) (mean : F) : WindowGaugeStats F :=
  if 0 < g.count ∧ F64.isFinite mean = true then { g.finish with mean := mean } else g.finish

def finiteNonnegative (value : F) : F :=
  if F64.isFinite value && F64.lt 0 value then value else 0

structure OptionalCounter (F : Type) where
  observed : Bool
  sum : F

def OptionalCounter.default : OptionalCounter F := ⟨false, 0⟩

def OptionalCounter.observe (c : OptionalCounter F) (value : Option F) : OptionalCounter F :=
  match value with
  | some value => { observed := true, sum := c.sum + finiteNonnegative value }
  | none => c

def OptionalCounter.finish (c : OptionalCounter F) : Option F :=
  if c.observed then some c.sum else none

structure WindowAccumulator (F : Type) where
  bandwidth : GaugeAccumulator F
  tcpRtt : GaugeAccumulator F
  tcpRttvar : GaugeAccumulator F
  tcpSndCwnd : GaugeAccumulator F
  tcpSndWnd : GaugeAccumulator F
  tcpPmtu : GaugeAccumulator F
  udpJitter : GaugeAccumulator F
  durationSeconds : F
  transferredBytes : F
  tcpRetransmits : OptionalCounter F
  tcpReorderEvents : OptionalCounter F
  udpPackets : OptionalCounter F
  udpLostPackets : OptionalCounter F
  udpOutOfOrderPackets : OptionalCounter F
  omittedIntervals : F

def WindowAccumulator.default : WindowAccumulator F where
  bandwidth := .default
  tcpRtt := .default
  tcpRttvar := .default
  tcpSndCwnd := .default
  tcpSndWnd := .default
  tcpPmtu := .default
  udpJitter := .default
  durationSeconds := 0
  transferredBytes := 0
  tcpRetransmits := .default
  tcpReorderEvents := .default
  udpPackets := .default
  udpLostPackets := .default
  udpOutOfOrderPackets := .default
  omittedIntervals := 0

def WindowAccumulator.observe (a : WindowAccumulator F) (metrics : Metrics F) :
    WindowAccumulator F where
  durationSeconds := a.durationSeconds + finiteNonnegative metrics.intervalDurationSeconds
  transferredBytes := a.transferredBytes + finiteNonnegative metrics.transferredBytes
  bandwidth := a.bandwidth.observe metrics.bandwidthBitsPerSecond
  tcpRtt := a.tcpRtt.observeOption metrics.tcpRttSeconds
  tcpRttvar := a.tcpRttvar.observeOption metrics.tcpRttvarSeconds
  tcpSndCwnd := a.tcpSndCwnd.observeOption metrics.tcpSndCwndBytes
  tcpSndWnd := a.tcpSndWnd.observeOption metrics.tcpSndWndBytes
  tcpPmtu := a.tcpPmtu.observeOption metrics.tcpPmtuBytes
  udpJitter := a.udpJitter.observeOption metrics.udpJitterSeconds
  tcpRetransmits := a.tcpRetransmits.observe metrics.tcpRetransmits
  tcpReorderEvents := a.tcpReorderEvents.observe metrics.tcpReorderEvents
  udpPackets := a.udpPackets.observe metrics.udpPackets
  udpLostPackets := a.udpLostPackets.observe metrics.udpLostPackets
  udpOutOfOrderPackets := a.udpOutOfOrderPackets.observe metrics.udpOutOfOrderPackets
  omittedIntervals := if metrics.omitted then a.omittedIntervals + 1 else a.omittedIntervals

/-- `aggregate_window`: counters are summed, gauges keep mean, minimum and maximum, the
context is that of the first sample and the timestamp that of the last. -/
def aggregateWindow (samples : List (Metrics F)) : Option (WindowMetrics F) :=
  match samples with
  | [] => none
  | context :: _ =>
    let a := samples.foldl WindowAccumulator.observe .default
    let bandwidthMean :=
      if F64.lt 0 a.durationSeconds then
        (a.transferredBytes * ((8 : ℕ) : F)) / a.durationSeconds
      else a.bandwidth.finish.mean
    some
      { timestampUnixSeconds := (samples.getLast?.map (·.timestampUnixSeconds)).getD 0
        role := context.role
        direction := context.direction
        streamCount := context.streamCount
        protocol := context.protocol
        durationSeconds := a.durationSeconds
        transferredBytes := a.transferredBytes
        bandwidthBitsPerSecond := a.bandwidth.finishWithMean bandwidthMean
        tcpRttSeconds := a.tcpRtt.finish
        tcpRttvarSeconds := a.tcpRttvar.finish
        tcpSndCwndBytes := a.tcpSndCwnd.finish
        tcpSndWndBytes := a.tcpSndWnd.finish
        tcpPmtuBytes := a.tcpPmtu.finish
        udpJitterSeconds := a.udpJitter.finish
        tcpRetransmits := a.tcpRetransmits.finish
        tcpReorderEvents := a.tcpReorderEvents.finish
        udpPackets := a.udpPackets.finish
        udpLostPackets := a.udpLostPackets.finish
        udpOutOfOrderPackets := a.udpOutOfOrderPackets.finish
        omittedIntervals := a.omittedIntervals }

@[simp] theorem aggregateWindow_eq_none_iff (samples : List (Metrics F)) :
    aggregateWindow samples = none ↔ samples = [] := by
  cases samples <;> simp [aggregateWindow]

end Iperf3Rs
