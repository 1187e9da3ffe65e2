import Iperf3Rs.IntervalArguments
import Iperf3Rs.BandwidthOrder

/-! The sample of an interval: it holds every argument of the callback in the field of its name,
and says what the streams of the reported direction have measured. -/

namespace Iperf3Rs

open Statistics
open ExactF64 (finite)

/-- What the sample of an interval says. Every field of it is determined. -/
structure IntervalSample (test : IperfTest) (reorder : IntervalReorder) (role : Role)
    (now : ExactF64) (m : Metrics ExactF64) : Prop where
  timestamp : m.timestampUnixSeconds = now
  role : m.role = role
  direction : m.direction = if test.sends then .sender else .receiver
  streamCount : m.streamCount = test.intervals.length
  protocol : m.protocol = match test.protocol with
    | .tcp => .tcp
    | .udp => .udp
    | .sctp => .sctp
    | .other _ => .unknown
  bytes : m.transferredBytes = finite test.bytes
  bandwidth : m.bandwidthBitsPerSecond = finite test.rate
  duration : m.intervalDurationSeconds = finite test.duration
  omitted : m.omitted = true ↔ ∃ i ∈ test.intervals, i.omitted ≠ 0
  counter_some : ∀ c : Counter, (c.reported m).isSome = true ↔ c.Available test reorder
  counter_sum : ∀ (c : Counter) x, c.reported m = some x → x = finite (c.amount test reorder)
  gauge_some : ∀ g : Gauge, (g.reported m).isSome = true ↔ g.Available test
  gauge_mean : ∀ (g : Gauge) x, g.reported m = some x →
    x = finite (mean (g.readings test)) ∧
      least (g.readings test) ≤ mean (g.readings test) ∧
      mean (g.readings test) ≤ greatest (g.readings test)

def MetricsCallbackArgs.doubles (args : MetricsCallbackArgs) : List ExactF64 :=
  [args.bytes, args.bitsPerSecond, args.tcpRetransmits, args.tcpRttSeconds, args.tcpRttvarSeconds,
    args.tcpSndCwndBytes, args.tcpSndWndBytes, args.tcpPmtuBytes, args.tcpReorderEvents,
    args.udpPackets, args.udpLostPackets, args.udpJitterSeconds, args.udpOutOfOrderPackets,
    args.intervalDurationSeconds, args.omitted]

variable {test : IperfTest} {reorder : IntervalReorder} {m : Metrics ExactF64}

theorem available_isSome {flag : ℤ} {value : ExactF64} :
    (available flag value).isSome = true ↔ flag ≠ 0 := by
  by_cases h : flag = 0 <;> simp [available, h]

theorem of_available {flag : ℤ} {value x : ExactF64} (h : available flag value = some x) :
    flag ≠ 0 ∧ x = value := by
  have hflag : flag ≠ 0 := available_isSome.mp (Option.isSome_of_eq_some h)
  rw [available, if_pos hflag] at h
  exact ⟨hflag, (Option.some.inj h).symm⟩

theorem flag_ne_zero {p : Prop} [Decidable p] : flag p ≠ 0 ↔ p := by
  by_cases h : p <;> simp [flag, h]

/-- A gauge that is measured has a reading exactly if it is available. -/
theorem Gauge.readings_ne_nil_iff (h : test.intervals ≠ []) (g : Gauge) :
    g.readings test ≠ [] ↔ g.Available test := by
  have hreadings : g.readings test ≠ [] ↔
      g.Measured test ∧ ∃ i ∈ test.intervals, (g.reading i).isSome = true := by
    rw [readings]
    split_ifs with hm
    · simp [hm, Option.isSome_iff_ne_none]
    · simp [hm]
  rw [hreadings]
  cases g with
  | udpJitter =>
    obtain ⟨i, hi⟩ := List.exists_mem_of_ne_nil _ h
    exact and_iff_left ⟨i, hi, rfl⟩
  | tcpRtt | tcpRttvar | tcpSndCwnd | tcpSndWnd | tcpPmtu => exact Iff.rfl

def Gauge.argument : Gauge → MetricsCallbackArgs → Option ExactF64
  | .tcpRtt, args => available args.tcpRttSecondsAvailable args.tcpRttSeconds
  | .tcpRttvar, args => available args.tcpRttvarSecondsAvailable args.tcpRttvarSeconds
  | .tcpSndCwnd, args => available args.tcpSndCwndBytesAvailable args.tcpSndCwndBytes
  | .tcpSndWnd, args => available args.tcpSndWndBytesAvailable args.tcpSndWndBytes
  | .tcpPmtu, args => available args.tcpPmtuBytesAvailable args.tcpPmtuBytes
  | .udpJitter, args => available args.udpJitterSecondsAvailable args.udpJitterSeconds

def Counter.argument : Counter → MetricsCallbackArgs → Option ExactF64
  | .tcpRetransmits, args => available args.tcpRetransmitsAvailable args.tcpRetransmits
  | .tcpReorderEvents, args => available args.tcpReorderEventsAvailable args.tcpReorderEvents
  | .udpPackets, args => available args.udpPacketsAvailable args.udpPackets
  | .udpLostPackets, args => available args.udpLostPacketsAvailable args.udpLostPackets
  | .udpOutOfOrderPackets, args =>
    available args.udpOutOfOrderPacketsAvailable args.udpOutOfOrderPackets

/-- The sample holds every argument in the field of its name. -/
structure Received (args : MetricsCallbackArgs) (m : Metrics ExactF64) : Prop where
  bytes : m.transferredBytes = args.bytes
  bandwidth : m.bandwidthBitsPerSecond = args.bitsPerSecond
  duration : m.intervalDurationSeconds = args.intervalDurationSeconds
  omitted : m.omitted = true ↔ args.omitted ≠ finite 0
  protocol : m.protocol = .fromCallbackValue args.protocol
  direction : m.direction = .fromCallbackValue args.direction
  streamCount : m.streamCount = nonnegativeUsize args.streamCount
  counter : ∀ c : Counter, c.reported m = c.argument args
  gauge : ∀ g : Gauge, g.reported m = g.argument args

/-- The Rust side reads the arguments in the order in which the native side passes them. -/
theorem metricsCallback_received {s : Callbacks} {target : CallbackTarget} {address : ℕ}
    (now : ExactF64) (args : MetricsCallbackArgs) (haddress : address ≠ 0)
    (hlock : s.poisoned = false) (htarget : s.targets address = some target) :
    ∃ m, metricsCallback now address args s = s.set address (target.enqueue m) ∧
      Received args m ∧ m.timestampUnixSeconds = now ∧ m.role = target.role := by
  have hrun : ¬ (address = 0 ∨ s.poisoned = true) := by
    simp [haddress, hlock]
  simp only [metricsCallback, if_neg hrun, htarget]
  refine ⟨_, rfl, ?_, rfl, rfl⟩
  refine ⟨rfl, rfl, rfl, decide_eq_true_iff, rfl, rfl, rfl, ?_, ?_⟩
  · rintro (_ | _ | _ | _ | _) <;> rfl
  · rintro (_ | _ | _ | _ | _ | _) <;> rfl

theorem Counter.argument_eq (c : Counter) :
    ((c.argument (intervalArgs test reorder)).isSome = true ↔ c.Available test reorder) ∧
    ∀ x, c.argument (intervalArgs test reorder) = some x → x = finite (c.amount test reorder) := by
  cases c with
  | tcpRetransmits =>
    refine ⟨available_isSome.trans flag_ne_zero, fun x hx => ?_⟩
    obtain ⟨hflag, rfl⟩ := of_available hx
    exact congrArg finite (if_pos (flag_ne_zero.mp hflag))
  | tcpReorderEvents => exact ⟨available_isSome, fun x hx => (of_available hx).2⟩
  | udpPackets | udpLostPackets | udpOutOfOrderPackets =>
    refine ⟨available_isSome.trans flag_ne_zero, fun x hx => ?_⟩
    obtain ⟨hflag, rfl⟩ := of_available hx
    exact congrArg finite (if_pos (flag_ne_zero.mp hflag))

theorem Gauge.argument_eq (g : Gauge) : g.argument (intervalArgs test reorder) =
    available (g.passed test).1 (g.passed test).2 := by
  cases g <;> rfl

theorem Received.sample {role : Role} {now : ExactF64} (h : Received (intervalArgs test reorder) m)
    (hne : test.intervals ≠ []) (hnow : m.timestampUnixSeconds = now) (hrole : m.role = role) :
    IntervalSample test reorder role now m where
  timestamp := hnow
  role := hrole
  direction := by
    rw [h.direction]
    cases hsends : test.sends <;> simp [intervalArgs, hsends, MetricDirection.fromCallbackValue]
  streamCount := h.streamCount.trans (Int.toNat_natCast _)
  protocol := by
    rw [h.protocol]
    cases hp : test.protocol <;>
      simp [intervalArgs, hp, ProtocolId.callbackValue, TransportProtocol.fromCallbackValue]
  bytes := h.bytes
  bandwidth := h.bandwidth
  duration := h.duration
  omitted := by
    rw [h.omitted]
    simp [intervalArgs, flag]
  counter_some c := by
    rw [h.counter]
    exact (Counter.argument_eq c).1
  counter_sum c x hx := by
    rw [h.counter] at hx
    exact (Counter.argument_eq c).2 x hx
  gauge_some g := by
    rw [h.gauge, Gauge.argument_eq, ← Gauge.readings_ne_nil_iff hne]
    exact available_isSome.trans flag_ne_zero
  gauge_mean g x hx := by
    rw [h.gauge, Gauge.argument_eq] at hx
    obtain ⟨hflag, rfl⟩ := of_available hx
    have hreadings : g.readings test ≠ [] := flag_ne_zero.mp hflag
    exact ⟨rfl, least_le_mean hreadings, mean_le_greatest hreadings⟩

/-- The emitted sample is of the form the bandwidth statistics rest on. -/
theorem IntervalSample.native {role : Role} {now : ExactF64}
    (h : IntervalSample test reorder role now m) (hduration : 0 ≤ test.duration) : m.Native := by
  have hbytes : 0 ≤ test.bytes := by
    refine List.sum_nonneg fun x hx => ?_
    obtain ⟨i, -, rfl⟩ := List.mem_map.mp hx
    exact Nat.cast_nonneg _
  have hb : m.bytes = test.bytes := by
    rw [Metrics.bytes, h.bytes]
    exact max_eq_left hbytes
  have hd : m.duration = test.duration := by
    rw [Metrics.duration, h.duration]
    exact max_eq_left hduration
  refine ⟨hb ▸ h.bytes, hd ▸ h.duration, ?_⟩
  rw [Metrics.rate, hb, hd]
  exact h.bandwidth

/-- An interval becomes one sample if some stream has something to report, and none otherwise. The
numbers of the call are finite, so no quotient was one by zero. -/
theorem interval_sample (test : IperfTest) (reorder : IntervalReorder) (s : Callbacks)
    (target : CallbackTarget) (now : ExactF64)
    (haddress : test.address ≠ 0) (hlock : s.poisoned = false)
    (htarget : s.targets test.address = some target) :
    (test.Reportable → ∃ m, IntervalSample test reorder target.role now m ∧
      emitIntervalMetrics (some (metricsCallback now)) reorder test s =
        s.set test.address (target.enqueue m) ∧
      Received (intervalArgs test reorder) m ∧
      (∀ x ∈ (intervalArgs test reorder).doubles, x.isFinite = true) ∧
      ∀ (σ : Type) (callback : MetricsCallback σ) (world : σ),
        emitIntervalMetrics (some callback) reorder test world =
          callback test.address (intervalArgs test reorder) world) ∧
    (¬ test.Reportable →
      emitIntervalMetrics (some (metricsCallback now)) reorder test s = s) := by
  refine ⟨fun h => ?_, (emitIntervalMetrics_eq _ s).2⟩
  obtain ⟨m, hrun, hreceived, hnow, hrole⟩ :=
    metricsCallback_received now (intervalArgs test reorder) haddress hlock htarget
  have hfinite : ∀ x ∈ (intervalArgs test reorder).doubles, x.isFinite = true := by
    simp [MetricsCallbackArgs.doubles, intervalArgs, ExactF64.isFinite]
  exact ⟨m, hreceived.sample h.intervals_ne_nil hnow hrole,
    ((emitIntervalMetrics_eq _ s).1 h).trans hrun, hreceived, hfinite,
    fun σ callback world => (emitIntervalMetrics_eq callback world).1 h⟩

/-- A client of a bidirectional test with two sending streams, of which one has no RTT yet, and
one that receives. -/
def duplexTest : IperfTest where
  address := 1
  role := 'c'
  mode := .bidirectional
  protocol := .tcp
  senderHasRetransmits := 1
  statsInterval := 1
  streams :=
    [⟨true, some ⟨1000, 1, 0, 2, 2000, 400, 10, 0, 1500, 0, 0, 0, 0⟩⟩,
      ⟨true, some ⟨500, 1, 1, 0, -1, 600, 0, 0, 1500, 0, 0, 0, 0⟩⟩,
      ⟨false, some ⟨7000, 1, 0, 0, 5, 5, 5, 5, 5, 0, 0, 0, 0⟩⟩,
      ⟨true, none⟩]

def duplexTarget : CallbackTarget := ⟨.new .latest, .client⟩

def duplexCallbacks : Callbacks :=
  ⟨false, fun address => if address = 1 then some duplexTarget else none⟩

theorem interval_sample_duplex :
    ∃ m, IntervalSample duplexTest ⟨3, 1⟩ .client (finite 0) m ∧
      emitIntervalMetrics (some (metricsCallback (finite 0))) ⟨3, 1⟩ duplexTest duplexCallbacks =
        duplexCallbacks.set 1 (duplexTarget.enqueue m) := by
  obtain ⟨hsample, -⟩ := interval_sample duplexTest ⟨3, 1⟩ duplexCallbacks duplexTarget (finite 0)
    one_ne_zero rfl rfl
  obtain ⟨m, hm, hrun, -⟩ := hsample ⟨_, List.mem_cons_self, .inr (by decide)⟩
  exact ⟨m, hm, hrun⟩

example : ((emitIntervalMetrics (some (metricsCallback (finite 0))) ⟨3, 1⟩ duplexTest
    duplexCallbacks).targets 1).map (·.link.chan.buf) =
    some [{ (Metrics.default : Metrics ExactF64) with
      role := .client
      direction := .sender
      streamCount := 2
      protocol := .tcp
      transferredBytes := finite 1500
      bandwidthBitsPerSecond := finite 12000
      tcpRetransmits := some (finite 2)
      tcpRttSeconds := some (finite (1 / 500))
      tcpRttvarSeconds := some (finite (1 / 2000))
      tcpSndCwndBytes := some (finite 10)
      tcpPmtuBytes := some (finite 1500)
      tcpReorderEvents := some (finite 3)
      intervalDurationSeconds := finite 1
      omitted := true }] := by
  decide +kernel

end Iperf3Rs
