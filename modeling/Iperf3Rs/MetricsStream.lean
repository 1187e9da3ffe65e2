import Iperf3Rs.MetricsQueue
import Iperf3Rs.RunCommand
import Iperf3Rs.WindowLoop
import Mathlib.Logic.Relation

/-! A metric event stream as three parties. The callback offers samples to the worker of
`metric_event_stream`, which sends events to the `MetricsStream` in the hands of the application.
Every operation on either channel is a step of its own, and the steps interleave freely. -/

namespace Iperf3Rs

inductive MetricsRecvError where
  | invalidTimeout
  | empty
  | timeout
  | closed
  deriving DecidableEq

variable {F : Type} [F64 F]

/-- What the worker sends, with the samples it stands for. -/
inductive Emitted (F : Type) [F64 F] where
  | sample (metrics : Metrics F)
  | window (w : FlushedWindow F)

def Emitted.event : Emitted F → MetricEvent F
  | .sample metrics => .interval metrics
  | .window w => .window w.metrics

/-- The worker keeps the clock reading with which it has started to wait. When its function has
returned, it drops the ends it owns, one after the other. -/
inductive StreamPc (F : Type) where
  | head
  | waiting (now : Instant)
  | processing (now : Instant) (metrics : Metrics F)
  | finalFlush
  | dropping (result : Except Error Unit)
  | closing (result : Except Error Unit)
  | done (result : Except Error Unit)

structure StreamConfig where
  limit : Instant
  mode : MetricsMode

/-- The samples libiperf has still to report, the two channels, the worker with its locals, and
two histories: the answers the application has got and what the event channel has accepted. -/
structure StreamRun (F : Type) [F64 F] where
  registered : Bool
  todo : List (Metrics F)
  raw : Link (Metrics F)
  worker : StreamPc F
  window : List (Metrics F)
  deadline : Option Instant
  events : Chan (MetricEvent F)
  replies : List (Except MetricsRecvError (MetricEvent F))
  accepted : List (Emitted F)

namespace StreamRun

def start (samples : List (Metrics F)) : StreamRun F where
  registered := true
  todo := samples
  raw := .new .all
  worker := .head
  window := []
  deadline := none
  events := (metricsChannel .all).1
  replies := []
  accepted := []

def received (s : StreamRun F) : List (MetricEvent F) := s.replies.filterMap Except.toOption

/-- `tx.send(event).is_ok()`. -/
def send (s : StreamRun F) (emitted : Emitted F) : Bool × StreamRun F :=
  match s.events.trySend emitted.event with
  | (.ok, events) => (true, { s with events := events, accepted := s.accepted ++ [emitted] })
  | (_, events) => (false, { s with events := events })

/-- `flush_window_event`. -/
def flush (s : StreamRun F) : Bool × StreamRun F :=
  match flushedWindow s.window with
  | none => (true, s)
  | some w => { s with window := [] }.send (.window w)

def flushThen (s : StreamRun F) (next : StreamRun F → StreamRun F) : StreamRun F :=
  match s.flush with
  | (true, s) => next s
  | (false, s) => { s with worker := .finalFlush }

def closeWindow (s : StreamRun F) : StreamRun F :=
  s.flushThen fun s => { s with deadline := none, worker := .head }

/-- `deadline = Some(checked_deadline(interval)?)`. -/
def arm (s : StreamRun F) (deadline : Except Error Instant) (window : List (Metrics F)) :
    StreamRun F :=
  match deadline with
  | .error e => { s with worker := .dropping (.error e) }
  | .ok deadline => { s with deadline := some deadline, window := window, worker := .head }

end StreamRun

/-- libiperf's reporting thread, and the run that unregisters the callback behind it. -/
inductive StreamCallbackStep (s : StreamRun F) : StreamRun F → Prop
  | emit (metrics : Metrics F) (rest : List (Metrics F)) (hreg : s.registered = true)
      (hst : s.raw.stage = none) (htodo : s.todo = metrics :: rest) :
      StreamCallbackStep s { s with raw := s.raw.offer metrics, todo := rest }
  | enqueue (stage : Enqueue (Metrics F)) (hst : s.raw.stage = some stage) :
      StreamCallbackStep s { s with raw := s.raw.advance stage }
  | unregister (hreg : s.registered = true) (hst : s.raw.stage = none) (htodo : s.todo = []) :
      StreamCallbackStep s { s with raw := s.raw.dropSender, registered := false }

def MetricsMode.left : MetricsMode → StreamPc F
  | .window _ => .finalFlush
  | .disabled | .interval => .dropping (.ok ())

/-- The parameters of `forward_window_events` are dropped last to first, and the receiver that
`forward_interval_events` iterates over goes with the loop. -/
def MetricsMode.dropsTxFirst : MetricsMode → Bool
  | .window _ => true
  | .disabled | .interval => false

inductive StreamWorkerStep (cfg : StreamConfig) (s : StreamRun F) : StreamRun F → Prop
  | skip (hpc : s.worker = .head) (hmode : cfg.mode = .disabled) :
      StreamWorkerStep cfg s { s with worker := .dropping (.ok ()) }
  | overdue (now flushAt : Instant) (hpc : s.worker = .head) (hd : s.deadline = some flushAt)
      (hnow : flushAt ≤ now) : StreamWorkerStep cfg s s.closeWindow
  | wait (now : Instant) (hpc : s.worker = .head) (hmode : cfg.mode ≠ .disabled)
      (hnow : ∀ flushAt, s.deadline = some flushAt → now < flushAt) :
      StreamWorkerStep cfg s { s with worker := .waiting now }
  | receive (now : Instant) (metrics : Metrics F) (rest : List (Metrics F))
      (hpc : s.worker = .waiting now) (hb : s.raw.chan.buf = metrics :: rest) :
      StreamWorkerStep cfg s
        { s with raw := s.raw.take metrics rest, worker := .processing now metrics }
  | timeout (now flushAt : Instant) (hpc : s.worker = .waiting now)
      (hd : s.deadline = some flushAt) : StreamWorkerStep cfg s s.closeWindow
  | disconnect (now : Instant) (hpc : s.worker = .waiting now) (hb : s.raw.chan.buf = [])
      (hs : s.raw.chan.senders = 0) : StreamWorkerStep cfg s { s with worker := cfg.mode.left }
  | forward (now : Instant) (metrics : Metrics F) (hpc : s.worker = .processing now metrics)
      (hmode : cfg.mode = .interval) :
      StreamWorkerStep cfg s
        (match s.send (.sample metrics) with
        | (true, s) => { s with worker := .head }
        | (false, s) => { s with worker := .dropping (.ok ()) })
  | first (now rearm : Instant) (metrics : Metrics F) (interval : Duration)
      (hpc : s.worker = .processing now metrics) (hmode : cfg.mode = .window interval)
      (hd : s.deadline = none) :
      StreamWorkerStep cfg s
        (s.arm (checkedDeadline cfg.limit rearm interval) (s.window ++ [metrics]))
  | join (now flushAt : Instant) (metrics : Metrics F) (interval : Duration)
      (hpc : s.worker = .processing now metrics) (hmode : cfg.mode = .window interval)
      (hd : s.deadline = some flushAt) (hc : windowContextChanges s.window metrics = false) :
      StreamWorkerStep cfg s { s with window := s.window ++ [metrics], worker := .head }
  | split (now flushAt rearm : Instant) (metrics : Metrics F) (interval : Duration)
      (hpc : s.worker = .processing now metrics) (hmode : cfg.mode = .window interval)
      (hd : s.deadline = some flushAt) (hc : windowContextChanges s.window metrics = true) :
      StreamWorkerStep cfg s
        (s.flushThen fun s =>
          s.arm (checkedDeadline cfg.limit rearm interval) (s.window ++ [metrics]))
  -- the result of the last send is ignored
  | finalFlush (hpc : s.worker = .finalFlush) :
      StreamWorkerStep cfg s { s.flush.2 with worker := .dropping (.ok ()) }
  | dropFirst (result : Except Error Unit) (hpc : s.worker = .dropping result) :
      StreamWorkerStep cfg s
        { s with
          raw := if cfg.mode.dropsTxFirst then s.raw else s.raw.dropReceiver
          events := if cfg.mode.dropsTxFirst then s.events.dropSender else s.events
          worker := .closing result }
  | dropSecond (result : Except Error Unit) (hpc : s.worker = .closing result) :
      StreamWorkerStep cfg s
        { s with
          raw := if cfg.mode.dropsTxFirst then s.raw.dropReceiver else s.raw
          events := if cfg.mode.dropsTxFirst then s.events else s.events.dropSender
          worker := .done result }

/-- The methods of `MetricsStream`. `recv`, and `next` which calls it, return `None` for
`closed`. -/
inductive StreamCall where
  | recv
  | tryRecv
  | recvTimeout (timeout : Duration)

def StreamCall.Asks (cfg : StreamConfig) (now : Instant) : StreamCall → Prop
  | .recv | .tryRecv => True
  | .recvTimeout timeout => (checkedDeadline cfg.limit now timeout).isOk = true

def StreamRun.reply (s : StreamRun F) (answer : Except MetricsRecvError (MetricEvent F)) :
    StreamRun F :=
  { s with replies := s.replies ++ [answer] }

inductive StreamConsumerStep (cfg : StreamConfig) (s : StreamRun F) : StreamRun F → Prop
  | event (call : StreamCall) (now : Instant) (event : MetricEvent F)
      (rest : List (MetricEvent F)) (hr : s.events.receivers ≠ 0) (hask : call.Asks cfg now)
      (hb : s.events.buf = event :: rest) :
      StreamConsumerStep cfg s
        ({ s with events := { s.events with buf := rest } }.reply (.ok event))
  | closed (call : StreamCall) (now : Instant) (hr : s.events.receivers ≠ 0)
      (hask : call.Asks cfg now) (hb : s.events.buf = []) (hs : s.events.senders = 0) :
      StreamConsumerStep cfg s (s.reply (.error .closed))
  | empty (hr : s.events.receivers ≠ 0) (hb : s.events.buf = []) (hs : s.events.senders ≠ 0) :
      StreamConsumerStep cfg s (s.reply (.error .empty))
  | timeout (timeout : Duration) (now : Instant) (hr : s.events.receivers ≠ 0)
      (hask : (StreamCall.recvTimeout timeout).Asks cfg now) (hb : s.events.buf = [])
      (hs : s.events.senders ≠ 0) : StreamConsumerStep cfg s (s.reply (.error .timeout))
  | invalidTimeout (timeout : Duration) (now : Instant) (hr : s.events.receivers ≠ 0)
      (hask : ¬(StreamCall.recvTimeout timeout).Asks cfg now) :
      StreamConsumerStep cfg s (s.reply (.error .invalidTimeout))
  | drop (hr : s.events.receivers ≠ 0) :
      StreamConsumerStep cfg s { s with events := s.events.dropReceiver }

inductive StreamStep (cfg : StreamConfig) (s : StreamRun F) : StreamRun F → Prop
  | callback {s' : StreamRun F} (h : StreamCallbackStep s s') : StreamStep cfg s s'
  | worker {s' : StreamRun F} (h : StreamWorkerStep cfg s s') : StreamStep cfg s s'
  | consumer {s' : StreamRun F} (h : StreamConsumerStep cfg s s') : StreamStep cfg s s'

/-- Every interleaving of the three parties, over a run that reports `samples`. -/
def StreamRun.Reachable (cfg : StreamConfig) (samples : List (Metrics F)) (s : StreamRun F) :
    Prop :=
  Relation.ReflTransGen (StreamStep cfg) (.start samples) s

end Iperf3Rs
