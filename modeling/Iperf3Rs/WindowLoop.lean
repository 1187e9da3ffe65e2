import Iperf3Rs.EventLoop
import Iperf3Rs.Metrics

/-! The two windowing loops, `forward_window_events` and `push_window_metrics`. An iteration
reads the clock and the channel, and a `Wakeup` holds what they answer: the reading at the head
of the loop, whether the receive timed out, the reading inside `checked_deadline`, and whether
the receiver of the window events is still connected when the iteration sends. -/

namespace Iperf3Rs

variable {F : Type} [F64 F]

def sameWindowContext (left right : Metrics F) : Bool :=
  left.role == right.role && left.direction == right.direction &&
    left.streamCount == right.streamCount && left.protocol == right.protocol

def windowContextChanges (window : List (Metrics F)) (metrics : Metrics F) : Bool :=
  match window.head? with
  | some first => !sameWindowContext first metrics
  | none => false

def Metrics.context (m : Metrics F) : Role × MetricDirection × ℕ × TransportProtocol :=
  (m.role, m.direction, m.streamCount, m.protocol)

omit [F64 F] in
theorem sameWindowContext_iff (left right : Metrics F) :
    sameWindowContext left right = true ↔ left.context = right.context := by
  simp [sameWindowContext, Metrics.context, and_assoc]

/-- Samples handed to `aggregate_window`, with the summary it made of them. -/
structure FlushedWindow (F : Type) [F64 F] where
  samples : List (Metrics F)
  metrics : WindowMetrics F
  aggregated : aggregateWindow samples = some metrics

def flushedWindow (window : List (Metrics F)) : Option (FlushedWindow F) :=
  match h : aggregateWindow window with
  | some metrics => some ⟨window, metrics, h⟩
  | none => none

@[simp] theorem flushedWindow_nil : flushedWindow ([] : List (Metrics F)) = none := rfl

theorem flushedWindow_of_ne_nil {window : List (Metrics F)} (h : window ≠ []) :
    ∃ w, flushedWindow window = some w ∧ w.samples = window := by
  unfold flushedWindow
  split
  · exact ⟨_, rfl, rfl⟩
  · next hn => exact absurd ((aggregateWindow_eq_none_iff window).mp hn) h

structure Wakeup where
  now : Instant
  timedOut : Bool
  rearm : Instant
  consumer : Bool
  deriving DecidableEq

inductive RecvTimeout (α : Type) where
  | ok (value : α) (rest : List α)
  | timeout
  | disconnected

def recvTimeout {α : Type} (timedOut : Bool) (rx : List α) : RecvTimeout α :=
  if timedOut then .timeout
  else match rx with
    | value :: rest => .ok value rest
    | [] => .disconnected

/-- `limit` bounds the instants of the platform. `fileWrite` gives the outcome of each call of
`write_interval` when a file sink is configured. -/
structure WindowConfig where
  limit : Instant
  interval : Duration
  fileSink : Bool
  fileWrite : ℕ → Except Error Unit

/-- The locals of a loop, with the samples `rx` still to arrive, the windows the event channel
accepted and the `write_interval` calls made so far. -/
structure WindowState (F : Type) [F64 F] where
  rx : List (Metrics F)
  window : List (Metrics F)
  deadline : Option Instant
  sent : List (FlushedWindow F)
  written : List (Metrics F)

def WindowState.start (samples : List (Metrics F)) : WindowState F := ⟨samples, [], none, [], []⟩

def WindowState.events (s : WindowState F) : List (MetricEvent F) :=
  s.sent.map fun w => .window w.metrics

def flushWindowEvent (t : Wakeup) (s : WindowState F) : Bool × WindowState F :=
  match flushedWindow s.window with
  | none => (true, s)
  -- the window is cleared before the send, whose success is returned
  | some w =>
    (t.consumer, { s with window := [], sent := if t.consumer then s.sent ++ [w] else s.sent })

def forwardWindowEventsIteration (cfg : WindowConfig) (t : Wakeup) (s : WindowState F) :
    Flow Error (WindowState F) :=
  match s.deadline with
  | some flushAt =>
    if flushAt ≤ t.now then
      match flushWindowEvent t s with
      | (false, s) => .stop s
      | (true, s) => .next { s with deadline := none }
    else
      match recvTimeout t.timedOut s.rx with
      | .ok metrics rx =>
        if windowContextChanges s.window metrics then
          match flushWindowEvent t { s with rx := rx } with
          | (false, s) => .stop s
          | (true, s) =>
            match checkedDeadline cfg.limit t.rearm cfg.interval with
            | .error e => .fail e s
            | .ok deadline =>
              .next { s with deadline := some deadline, window := s.window ++ [metrics] }
        else .next { s with rx := rx, window := s.window ++ [metrics] }
      | .timeout =>
        match flushWindowEvent t s with
        | (false, s) => .stop s
        | (true, s) => .next { s with deadline := none }
      | .disconnected => .stop s
  | none =>
    match s.rx with
    | metrics :: rx =>
      let s := { s with rx := rx, window := s.window ++ [metrics] }
      match checkedDeadline cfg.limit t.rearm cfg.interval with
      | .error e => .fail e s
      | .ok deadline => .next { s with deadline := some deadline }
    | [] => .stop s

def forwardWindowEvents (cfg : WindowConfig) (schedule : List Wakeup) (s : WindowState F) :
    LoopRun Error (WindowState F) :=
  runLoop (forwardWindowEventsIteration cfg) (fun t s => (flushWindowEvent t s).2) schedule s

def flushWindowMetrics (t : Wakeup) (s : WindowState F) : WindowState F :=
  match flushedWindow s.window with
  | none => s
  -- `enqueue_latest` on an unbounded queue drops the event only when the receiver is gone
  | some w => { s with window := [], sent := if t.consumer then s.sent ++ [w] else s.sent }

def writeMetricsFile (cfg : WindowConfig) (s : WindowState F) (metrics : Metrics F) :
    Except Error Unit × WindowState F :=
  if cfg.fileSink then
    (cfg.fileWrite s.written.length, { s with written := s.written ++ [metrics] })
  else (.ok (), s)

def pushWindowMetricsIteration (cfg : WindowConfig) (t : Wakeup) (s : WindowState F) :
    Flow Error (WindowState F) :=
  match s.deadline with
  | some flushAt =>
    if flushAt ≤ t.now then .next { flushWindowMetrics t s with deadline := none }
    else
      match recvTimeout t.timedOut s.rx with
      | .ok metrics rx =>
        match writeMetricsFile cfg { s with rx := rx } metrics with
        | (.error e, s) => .fail e s
        | (.ok (), s) =>
          if windowContextChanges s.window metrics then
            let s := flushWindowMetrics t s
            match checkedDeadline cfg.limit t.rearm cfg.interval with
            | .error e => .fail e s
            | .ok deadline =>
              .next { s with deadline := some deadline, window := s.window ++ [metrics] }
          else .next { s with window := s.window ++ [metrics] }
      | .timeout => .next { flushWindowMetrics t s with deadline := none }
      | .disconnected => .stop s
  | none =>
    match s.rx with
    | metrics :: rx =>
      match writeMetricsFile cfg { s with rx := rx } metrics with
      | (.error e, s) => .fail e s
      | (.ok (), s) =>
        let s := { s with window := s.window ++ [metrics] }
        match checkedDeadline cfg.limit t.rearm cfg.interval with
        | .error e => .fail e s
        | .ok deadline => .next { s with deadline := some deadline }
    | [] => .stop s

def pushWindowMetrics (cfg : WindowConfig) (schedule : List Wakeup) (s : WindowState F) :
    LoopRun Error (WindowState F) :=
  runLoop (pushWindowMetricsIteration cfg) flushWindowMetrics schedule s

end Iperf3Rs
