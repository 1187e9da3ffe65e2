import Iperf3Rs.IntervalMetrics
import Iperf3Rs.WindowStatistics

/-! What the native callback is called with, in the terms of the streams that take part in an
interval: counters are sums over these streams, gauges the means of what some of them report. -/

namespace Iperf3Rs

open Statistics
open ExactF64 (finite)

namespace IperfTest

/-- The direction that is reported: a bidirectional test reports what its client sends. -/
def sends (test : IperfTest) : Bool :=
  match test.mode with
  | .sender => true
  | .receiver => false
  | .bidirectional => test.role = 'c'

/-- The last results of the streams of the reported direction. -/
def intervals (test : IperfTest) : List IntervalResults :=
  test.streams.filterMap fun stream =>
    if stream.sender = test.sends then stream.lastInterval else none

/-- Some result covers a tenth of the time between two reports, or carries bytes. -/
def Reportable (test : IperfTest) : Prop :=
  ∃ i ∈ test.intervals, test.statsInterval * (1 / 10) ≤ i.intervalDuration ∨ 0 < i.bytesTransferred

/-- The kernel reports on the connections. -/
def TcpInfo (test : IperfTest) : Prop :=
  test.protocol = .tcp ∧ test.senderHasRetransmits = 1 ∧ test.sends = true

instance : DecidablePred TcpInfo := fun _ => inferInstanceAs (Decidable (_ ∧ _ ∧ _))

def sum (test : IperfTest) (amount : IntervalResults → ℚ) : ℚ := (test.intervals.map amount).sum

def bytes (test : IperfTest) : ℚ := test.sum fun i => i.bytesTransferred

def duration (test : IperfTest) : ℚ := (test.intervals.head?.map (·.intervalDuration)).getD 0

def rate (test : IperfTest) : ℚ :=
  if 0 < test.duration then test.bytes * 8 / test.duration else 0

end IperfTest

def nonnegative (value : ℤ) : Option ℚ := if 0 ≤ value then some value else none

def positive (value : ℤ) : Option ℚ := if 0 < value then some value else none

/-- What a result says about a gauge, in the unit of the sample. -/
def Gauge.reading : Gauge → IntervalResults → Option ℚ
  | .tcpRtt, i => (nonnegative i.rtt).map (· / 1000000)
  | .tcpRttvar, i => (nonnegative i.rttvar).map (· / 1000000)
  | .tcpSndCwnd, i => positive i.sndCwnd
  | .tcpSndWnd, i => positive i.sndWnd
  | .tcpPmtu, i => nonnegative i.pmtu
  | .udpJitter, i => some i.jitter

/-- The test measures the gauge. -/
def Gauge.Measured (test : IperfTest) : Gauge → Prop
  | .tcpRtt | .tcpRttvar | .tcpSndCwnd | .tcpSndWnd | .tcpPmtu => test.TcpInfo
  | .udpJitter => test.protocol = .udp ∧ test.sends = false

instance (test : IperfTest) : DecidablePred (Gauge.Measured test)
  | .tcpRtt | .tcpRttvar | .tcpSndCwnd | .tcpSndWnd | .tcpPmtu =>
    inferInstanceAs (Decidable test.TcpInfo)
  | .udpJitter => inferInstanceAs (Decidable (_ ∧ _))

def Gauge.readings (test : IperfTest) (g : Gauge) : List ℚ :=
  if g.Measured test then test.intervals.filterMap g.reading else []

/-- A TCP gauge is available if some stream has a reading for it, jitter on every receiver. -/
def Gauge.Available (test : IperfTest) : Gauge → Prop
  | .udpJitter => test.protocol = .udp ∧ test.sends = false
  | g => test.TcpInfo ∧ ∃ i ∈ test.intervals, (g.reading i).isSome = true

def Counter.Available (test : IperfTest) (reorder : IntervalReorder) : Counter → Prop
  | .tcpRetransmits => test.TcpInfo
  | .tcpReorderEvents => reorder.available ≠ 0
  | .udpPackets | .udpLostPackets | .udpOutOfOrderPackets => test.protocol = .udp

def Counter.amount (test : IperfTest) (reorder : IntervalReorder) : Counter → ℚ
  | .tcpRetransmits => test.sum fun i => i.intervalRetrans
  | .tcpReorderEvents => reorder.events
  | .udpPackets => test.sum fun i => i.intervalPacketCount
  | .udpLostPackets => test.sum fun i => i.intervalCntError
  | .udpOutOfOrderPackets => test.sum fun i => i.intervalOutoforderPackets

def flag (p : Prop) [Decidable p] : ℤ := if p then 1 else 0

/-- What the callback is called with. -/
def intervalArgs (test : IperfTest) (reorder : IntervalReorder) : MetricsCallbackArgs where
  bytes := finite test.bytes
  bitsPerSecond := finite test.rate
  tcpRetransmits := finite (if test.TcpInfo then test.sum fun i => i.intervalRetrans else 0)
  tcpRttSeconds := finite (mean (Gauge.tcpRtt.readings test))
  tcpRttvarSeconds := finite (mean (Gauge.tcpRttvar.readings test))
  tcpSndCwndBytes := finite (mean (Gauge.tcpSndCwnd.readings test))
  tcpSndWndBytes := finite (mean (Gauge.tcpSndWnd.readings test))
  tcpPmtuBytes := finite (mean (Gauge.tcpPmtu.readings test))
  tcpReorderEvents := finite reorder.events
  udpPackets := finite (if test.protocol = .udp then test.sum fun i => i.intervalPacketCount else 0)
  udpLostPackets := finite (if test.protocol = .udp then test.sum fun i => i.intervalCntError else 0)
  udpJitterSeconds := finite (mean (Gauge.udpJitter.readings test))
  udpOutOfOrderPackets :=
    finite (if test.protocol = .udp then test.sum fun i => i.intervalOutoforderPackets else 0)
  intervalDurationSeconds := finite test.duration
  omitted := finite (flag (∃ i ∈ test.intervals, i.omitted ≠ 0))
  protocol := test.protocol.callbackValue
  direction := if test.sends then 1 else 2
  streamCount := test.intervals.length
  tcpRetransmitsAvailable := flag test.TcpInfo
  tcpRttSecondsAvailable := flag (Gauge.tcpRtt.readings test ≠ [])
  tcpRttvarSecondsAvailable := flag (Gauge.tcpRttvar.readings test ≠ [])
  tcpSndCwndBytesAvailable := flag (Gauge.tcpSndCwnd.readings test ≠ [])
  tcpSndWndBytesAvailable := flag (Gauge.tcpSndWnd.readings test ≠ [])
  tcpPmtuBytesAvailable := flag (Gauge.tcpPmtu.readings test ≠ [])
  tcpReorderEventsAvailable := reorder.available
  udpPacketsAvailable := flag (test.protocol = .udp)
  udpLostPacketsAvailable := flag (test.protocol = .udp)
  udpJitterSecondsAvailable := flag (Gauge.udpJitter.readings test ≠ [])
  udpOutOfOrderPacketsAvailable := flag (test.protocol = .udp)

section Loop

variable {test : IperfTest}

def Reports.of (readings : List ℚ) : Reports := ⟨readings.sum, readings.length⟩

def TcpTotals.of (l : List IntervalResults) : TcpTotals where
  retransmitsAvailable := if l = [] then 0 else 1
  retransmits := (l.map fun i => (i.intervalRetrans : ℚ)).sum
  rtt := .of (l.filterMap fun i => nonnegative i.rtt)
  rttvar := .of (l.filterMap fun i => nonnegative i.rttvar)
  sndCwnd := .of (l.filterMap fun i => positive i.sndCwnd)
  sndWnd := .of (l.filterMap fun i => positive i.sndWnd)
  pmtu := .of (l.filterMap fun i => nonnegative i.pmtu)

def UdpTotals.of (test : IperfTest) (l : List IntervalResults) : UdpTotals where
  packetsAvailable := if l = [] then 0 else 1
  lostPacketsAvailable := if l = [] then 0 else 1
  outOfOrderPacketsAvailable := if l = [] then 0 else 1
  packets := (l.map fun i => (i.intervalPacketCount : ℚ)).sum
  lostPackets := (l.map fun i => (i.intervalCntError : ℚ)).sum
  outOfOrderPackets := (l.map fun i => (i.intervalOutoforderPackets : ℚ)).sum
  jitterAvailable := if l = [] ∨ test.sends = true then 0 else 1
  jitter := if test.sends = true then 0 else (l.map (·.jitter)).sum

/-- The state of the loop, as a function of the results it has seen. -/
def IntervalTotals.of (test : IperfTest) (l : List IntervalResults) : IntervalTotals where
  intervalOk :=
    if ∃ i ∈ l, test.statsInterval * (1 / 10) ≤ i.intervalDuration ∨ 0 < i.bytesTransferred
    then 1 else 0
  bytes := (l.map fun i => (i.bytesTransferred : ℚ)).sum
  omitted := if ∃ i ∈ l, i.omitted ≠ 0 then 1 else 0
  tcp := if test.TcpInfo then .of l else .zero
  udp := if test.protocol = .udp then .of test l else .zero
  intervalDuration := (l.head?.map (·.intervalDuration)).getD 0
  matchedStreams := l.length

theorem streamMustBeSender_eq (test : IperfTest) :
    streamMustBeSender test = test.sends.toInt := by
  cases hmode : test.mode with
  | sender | receiver =>
    simp only [streamMustBeSender, IperfTest.sends, hmode, IperfMode.toInt, reduceCtorEq, if_false]
    rfl
  | bidirectional =>
    by_cases hrole : test.role = 'c'
    · simp [streamMustBeSender, IperfTest.sends, hmode, hrole]
    · simp [streamMustBeSender, IperfTest.sends, hmode, hrole]

theorem Reports.of_addNonnegative (readings : List ℚ) (value : ℤ) :
    (of readings).addNonnegative value = of (readings ++ (nonnegative value).toList) := by
  by_cases h : 0 ≤ value
  · simp [addNonnegative, Iperf3Rs.addNonnegative, nonnegative, of, h, not_lt.mpr h]
  · simp [addNonnegative, Iperf3Rs.addNonnegative, nonnegative, of, h, not_le.mp h]

theorem Reports.of_addPositive (readings : List ℚ) (value : ℤ) :
    (of readings).addPositive value = of (readings ++ (positive value).toList) := by
  by_cases h : 0 < value
  · simp [addPositive, positive, of, h]
  · simp [addPositive, positive, of, h]

theorem filterMap_singleton {α β : Type*} (f : α → Option β) (x : α) :
    [x].filterMap f = (f x).toList := by
  cases h : f x <;> simp [h]

theorem TcpTotals.of_add (l : List IntervalResults) (i : IntervalResults) :
    (of l).add i = of (l ++ [i]) := by
  simp [add, of, Reports.of_addNonnegative, Reports.of_addPositive, filterMap_singleton]

theorem UdpTotals.of_add (l : List IntervalResults) (i : IntervalResults) :
    (of test l).add test.sends.toInt i = of test (l ++ [i]) := by
  cases hsends : test.sends <;> simp [add, of, hsends]

theorem IntervalTotals.of_add (l : List IntervalResults) (i : IntervalResults) :
    (of test l).add test test.sends.toInt i = of test (l ++ [i]) := by
  have hsends : test.sends.toInt ≠ 0 ↔ test.sends = true := by cases test.sends <;> simp
  simp only [add, of, mk.injEq]
  refine ⟨?intervalOk, ?bytes, ?omitted, ?tcp, ?udp, ?intervalDuration, ?matchedStreams⟩
  case intervalOk =>
    rw [← ite_or]
    refine if_congr ?_ rfl rfl
    simp [or_and_right, exists_or, or_comm]
  case bytes => simp
  case omitted =>
    rw [← ite_or]
    refine if_congr ?_ rfl rfl
    simp [or_and_right, exists_or, or_comm]
  case tcp =>
    cases hp : test.protocol with
    | tcp =>
      simp only [IperfTest.TcpInfo, hp, true_and, hsends]
      split_ifs
      · exact TcpTotals.of_add l i
      · rfl
    | udp | sctp | other => simp [IperfTest.TcpInfo, hp]
  case udp =>
    cases hp : test.protocol with
    | udp => simpa [hp] using UdpTotals.of_add l i
    | tcp | sctp | other => simp
  case intervalDuration =>
    cases l with
    | nil => rfl
    | cons j l => exact if_neg (Nat.cast_ne_zero.mpr (Nat.succ_ne_zero _))
  case matchedStreams => simp

theorem IntervalTotals.foldl_add (l : List IntervalResults) :
    l.foldl (add test test.sends.toInt) zero = of test l := by
  induction l using List.reverseRecOn with
  | nil =>
    simp [of, zero, TcpTotals.of, TcpTotals.zero, UdpTotals.of, UdpTotals.zero, Reports.of,
      Reports.zero]
  | append_singleton l i ih =>
    rw [List.foldl_append, ih, List.foldl_cons, List.foldl_nil, of_add]

/-- The loop visits the results of the reported direction, and no others. -/
theorem IntervalTotals.foldl_visit (test : IperfTest) :
    test.streams.foldl (visit test (streamMustBeSender test)) zero = of test test.intervals := by
  rw [← foldl_add, IperfTest.intervals, List.foldl_filterMap, streamMustBeSender_eq]
  congr 1
  funext a stream
  have hsender : stream.sender.toInt = test.sends.toInt ↔ stream.sender = test.sends := by
    cases stream.sender <;> cases test.sends <;> simp
  by_cases h : stream.sender = test.sends
  · rw [visit, if_neg (not_not.mpr (hsender.mpr h)), if_pos h]
    cases stream.lastInterval <;> rfl
  · rw [visit, if_pos (mt hsender.mp h), if_neg h]

end Loop

section Averages

theorem Reports.of_quotient {readings : List ℚ} (h : readings ≠ []) :
    (of readings).count > 0 ∧
    finite (of readings).sum / finite (of readings).count = finite (mean readings) := by
  have hcount : (of readings).count > 0 := Nat.cast_pos.mpr (List.length_pos_iff.mpr h)
  have hne : ((of readings).count : ℚ) ≠ 0 := Int.cast_ne_zero.mpr hcount.ne'
  refine ⟨hcount, ?_⟩
  rw [ExactF64.finite_div hne]
  simp [of, mean]

theorem Reports.of_average (readings : List ℚ) :
    (of readings).average = (flag (readings ≠ []), finite (mean readings)) := by
  by_cases h : readings = []
  · simp [average, of, mean, flag, h]
  · obtain ⟨hcount, hquotient⟩ := of_quotient h
    rw [average, if_pos hcount, hquotient, flag, if_pos h]

theorem Reports.of_averageSeconds (readings : List ℚ) :
    (of readings).averageSeconds =
      (flag (readings ≠ []), finite (mean (readings.map (· / 1000000)))) := by
  by_cases h : readings = []
  · simp [averageSeconds, of, mean, flag, h]
  · obtain ⟨hcount, hquotient⟩ := of_quotient h
    rw [averageSeconds, if_pos hcount, hquotient, ExactF64.finite_div (by norm_num), mean_map_div,
      flag, if_pos h]

variable {test : IperfTest}

theorem nonnegative_averageSeconds (l : List IntervalResults) (field : IntervalResults → ℤ) :
    (Reports.of (l.filterMap fun i => nonnegative (field i))).averageSeconds =
      (flag (l.filterMap (fun i => (nonnegative (field i)).map (· / 1000000)) ≠ []),
        finite (mean (l.filterMap fun i => (nonnegative (field i)).map (· / 1000000)))) := by
  rw [Reports.of_averageSeconds, List.map_filterMap]
  congr 1
  refine if_congr (not_congr ?_) rfl rfl
  rw [← List.map_filterMap, List.map_eq_nil_iff]

/-- The flag and the value that are passed for a gauge. -/
def Gauge.passed (test : IperfTest) (g : Gauge) : ℤ × ExactF64 :=
  (flag (g.readings test ≠ []), finite (mean (g.readings test)))

theorem tcp_averages (test : IperfTest) :
    let tcp := (IntervalTotals.of test test.intervals).tcp
    tcp.rtt.averageSeconds = Gauge.tcpRtt.passed test ∧
    tcp.rttvar.averageSeconds = Gauge.tcpRttvar.passed test ∧
    tcp.sndCwnd.average = Gauge.tcpSndCwnd.passed test ∧
    tcp.sndWnd.average = Gauge.tcpSndWnd.passed test ∧
    tcp.pmtu.average = Gauge.tcpPmtu.passed test := by
  by_cases h : test.TcpInfo
  · simp only [IntervalTotals.of, Gauge.passed, Gauge.readings, Gauge.Measured, h, if_true]
    exact ⟨nonnegative_averageSeconds .., nonnegative_averageSeconds .., Reports.of_average _,
      Reports.of_average _, Reports.of_average _⟩
  · simp only [IntervalTotals.of, Gauge.passed, Gauge.readings, Gauge.Measured, h, if_false]
    exact ⟨Reports.of_averageSeconds [], Reports.of_averageSeconds [], Reports.of_average [],
      Reports.of_average [], Reports.of_average []⟩

theorem jitter_readings (hudp : test.protocol = .udp) (hsends : test.sends = false) :
    Gauge.udpJitter.readings test = test.intervals.map (·.jitter) :=
  (if_pos ⟨hudp, hsends⟩).trans (congrFun List.filterMap_eq_map' _)

theorem jitter_average (h : test.intervals ≠ []) :
    let a := IntervalTotals.of test test.intervals
    a.udp.jitterAvailable = flag (Gauge.udpJitter.readings test ≠ []) ∧
    (if test.protocol = .udp ∧ test.sends.toInt = 0 then
        finite a.udp.jitter / finite a.matchedStreams
      else finite a.udp.jitter) = finite (mean (Gauge.udpJitter.readings test)) := by
  have hsends : test.sends.toInt = 0 ↔ test.sends = false := by cases test.sends <;> simp
  simp only [hsends]
  by_cases hm : test.protocol = .udp ∧ test.sends = false
  · obtain ⟨hudp, hreceives⟩ := hm
    have hne : ((test.intervals.length : ℤ) : ℚ) ≠ 0 := by
      exact_mod_cast mt List.length_eq_zero_iff.mp h
    rw [jitter_readings hudp hreceives, if_pos ⟨hudp, hreceives⟩]
    simp only [IntervalTotals.of, hudp, if_true, UdpTotals.of, h, hreceives, flag,
      ExactF64.finite_div hne]
    simp [mean, h]
  · have hreadings : Gauge.udpJitter.readings test = [] := if_neg hm
    rw [if_neg hm, hreadings]
    by_cases hudp : test.protocol = .udp
    · have hsend : test.sends = true := by simpa [hudp] using hm
      simp [IntervalTotals.of, hudp, UdpTotals.of, hsend, flag, mean]
    · simp [IntervalTotals.of, hudp, UdpTotals.zero, flag, mean]

theorem bandwidth_eq (test : IperfTest) :
    let a := IntervalTotals.of test test.intervals
    (if a.intervalDuration > 0 then finite (a.bytes * 8) / finite a.intervalDuration
      else finite 0) = finite test.rate := by
  change (if 0 < test.duration then finite (test.bytes * 8) / finite test.duration else _) = _
  rw [IperfTest.rate]
  split_ifs with hd
  · exact ExactF64.finite_div hd.ne'
  · rfl

theorem callbackArgs_eq (reorder : IntervalReorder) (h : test.intervals ≠ []) :
    (IntervalTotals.of test test.intervals).callbackArgs reorder test test.sends.toInt =
      intervalArgs test reorder := by
  obtain ⟨hrtt, hrttvar, hsndCwnd, hsndWnd, hpmtu⟩ := tcp_averages test
  obtain ⟨hjitterAvailable, hjitter⟩ := jitter_average h
  simp only [IntervalTotals.callbackArgs, hrtt, hrttvar, hsndCwnd, hsndWnd, hpmtu, hjitter,
    hjitterAvailable, bandwidth_eq, intervalArgs, Gauge.passed, MetricsCallbackArgs.mk.injEq,
    true_and]
  refine ⟨rfl, ?retransmits, ?packets, ?lostPackets, ?outOfOrderPackets, rfl, ?omitted,
    ?direction, rfl, ?retransmitsAvailable, ?packetsAvailable, ?lostPacketsAvailable,
    ?outOfOrderPacketsAvailable⟩
  case retransmits => exact congrArg finite (apply_ite TcpTotals.retransmits ..)
  case packets => exact congrArg finite (apply_ite UdpTotals.packets ..)
  case lostPackets => exact congrArg finite (apply_ite UdpTotals.lostPackets ..)
  case outOfOrderPackets => exact congrArg finite (apply_ite UdpTotals.outOfOrderPackets ..)
  case omitted => simp [IntervalTotals.of, flag]
  case direction => cases test.sends <;> rfl
  case retransmitsAvailable =>
    simp [IntervalTotals.of, apply_ite, TcpTotals.of, TcpTotals.zero, flag, h]
  case packetsAvailable | lostPacketsAvailable | outOfOrderPacketsAvailable =>
    simp [IntervalTotals.of, apply_ite, UdpTotals.of, UdpTotals.zero, flag, h]

end Averages

variable {test : IperfTest} {reorder : IntervalReorder}

theorem IperfTest.Reportable.intervals_ne_nil (h : test.Reportable) : test.intervals ≠ [] := by
  obtain ⟨i, hi, -⟩ := h
  exact List.ne_nil_of_mem hi

/-- The loop of the native code decides whether the interval is reported, and its totals are what
the callback is called with. -/
theorem emitIntervalMetrics_eq {σ : Type*} (callback : MetricsCallback σ) (world : σ) :
    (test.Reportable → emitIntervalMetrics (some callback) reorder test world =
      callback test.address (intervalArgs test reorder) world) ∧
    (¬ test.Reportable → emitIntervalMetrics (some callback) reorder test world = world) := by
  have hok : (IntervalTotals.of test test.intervals).intervalOk = 0 ↔ ¬ test.Reportable := by
    simp only [IntervalTotals.of, ite_eq_right_iff, one_ne_zero, imp_false]
    rfl
  dsimp only [emitIntervalMetrics]
  rw [IntervalTotals.foldl_visit]
  constructor
  · intro h
    have hne := h.intervals_ne_nil
    have hmatched : (IntervalTotals.of test test.intervals).matchedStreams ≠ 0 :=
      Nat.cast_ne_zero.mpr (mt List.length_eq_zero_iff.mp hne)
    rw [if_neg (not_or.mpr ⟨fun h0 => hok.mp h0 h, hmatched⟩), streamMustBeSender_eq,
      callbackArgs_eq reorder hne]
  · intro h
    exact if_pos (.inl (hok.mpr h))

end Iperf3Rs
