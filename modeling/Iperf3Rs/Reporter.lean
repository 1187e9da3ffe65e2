import Iperf3Rs.MetricsQueue
import Iperf3Rs.WindowLoop
import Mathlib.Logic.Relation

/-! The metrics reporter as three parties. The callback offers samples to the sink worker
(`run_metrics_sinks`), which writes them to the file sink, if there is one, and offers events to
the Pushgateway delivery worker (`deliver_push_metrics`). Every channel operation, file write
and HTTP request is a step of its own, and the parties' steps interleave freely. A Pushgateway
is always configured here; without one the sink worker is the loop over file writes alone. -/

namespace Iperf3Rs

structure ReporterConfig where
  pushInterval : Option Duration
  fileSink : Bool
  fileWrite : ℕ → Except Error Unit
  limit : Instant
  retries : ℕ
  deleteOnFinish : Bool

/-- `PushGatewaySink::delivery_queue`. -/
def ReporterConfig.deliveryQueue (cfg : ReporterConfig) : MetricsQueue :=
  if cfg.pushInterval.isSome then .all else .latest

/-- `MetricsSinks::queue`. -/
def ReporterConfig.queue (cfg : ReporterConfig) : MetricsQueue :=
  if cfg.fileSink then .all else cfg.deliveryQueue

def ReporterConfig.writeOutcome (cfg : ReporterConfig) (k : ℕ) : Except Error Unit :=
  if cfg.fileSink then cfg.fileWrite k else .ok ()

/-- The callback target is unregistered by dropping its sender, then its spare receiver. -/
inductive CallbackPc where
  | running
  | droppingLatest
  | dropped
  deriving DecidableEq

inductive SinkPc (F : Type) where
  | head
  | waiting
  | writing (metrics : Metrics F)
  | processing (metrics : Metrics F)
  | finalFlush
  | returning (result : Except Error Unit)
  | droppingTx (result : Except Error Unit)
  | droppingLatest (result : Except Error Unit)
  | joining (result : Except Error Unit)
  | done (result : Except Error Unit)

inductive HttpCall (F : Type) where
  | push (event : MetricEvent F)
  | delete

inductive Attempt where
  | success
  | failure (retryable : Bool)

inductive DeliveryPc (F : Type) where
  | receiving
  | calling (call : HttpCall F) (attempt : ℕ) (inFlight : Bool)
  | done

/-- What the delivery worker does towards the Pushgateway. -/
inductive HttpEvent (F : Type) where
  | call (call : HttpCall F)
  | request
  | response
  | ret

/-- `flushed`, `written`, `overflowed` and `log` are histories: the windows completed, the calls
of `write_interval`, whether a deadline was unrepresentable, and the HTTP activity. -/
structure Reporter (F : Type) [F64 F] where
  callback : CallbackPc
  todo : List (Metrics F)
  raw : Link (Metrics F)
  sink : SinkPc F
  window : List (Metrics F)
  deadline : Option Instant
  events : Link (MetricEvent F)
  delivery : DeliveryPc F
  flushed : List (FlushedWindow F)
  written : List (Metrics F)
  overflowed : Bool
  log : List (HttpEvent F)

variable {F : Type} [F64 F]

def Reporter.start (cfg : ReporterConfig) (samples : List (Metrics F)) : Reporter F where
  callback := .running
  todo := samples
  raw := .new cfg.queue
  sink := .head
  window := []
  deadline := none
  events := .new cfg.deliveryQueue
  delivery := .receiving
  flushed := []
  written := []
  overflowed := false
  log := []

/-- `IntervalMetricsReporter::finish` returns the result of the sink worker it joins. -/
def Reporter.Finished (s : Reporter F) (result : Except Error Unit) : Prop :=
  s.callback = .dropped ∧ s.sink = .done result

def Reporter.flush (s : Reporter F) : Reporter F :=
  match flushedWindow s.window with
  | none => s
  | some w =>
    { s with
      events := s.events.offer (.window w.metrics)
      window := []
      flushed := s.flushed ++ [w] }

inductive CallbackStep (s : Reporter F) : Reporter F → Prop
  | emit (metrics : Metrics F) (rest : List (Metrics F)) (hpc : s.callback = .running)
      (hst : s.raw.stage = none) (htodo : s.todo = metrics :: rest) :
      CallbackStep s { s with raw := s.raw.offer metrics, todo := rest }
  | enqueue (stage : Enqueue (Metrics F)) (hst : s.raw.stage = some stage) :
      CallbackStep s { s with raw := s.raw.advance stage }
  | unregister (hpc : s.callback = .running) (hst : s.raw.stage = none) (htodo : s.todo = []) :
      CallbackStep s { s with raw := s.raw.dropSender, callback := .droppingLatest }
  | dropLatest (hpc : s.callback = .droppingLatest) :
      CallbackStep s
        { s with
          raw := if s.raw.latest then s.raw.dropReceiver else s.raw
          callback := .dropped }

inductive SinkStep (cfg : ReporterConfig) (s : Reporter F) : Reporter F → Prop
  | enqueue (stage : Enqueue (MetricEvent F)) (hst : s.events.stage = some stage) :
      SinkStep cfg s { s with events := s.events.advance stage }
  -- the top of the loop, with the clock reading it takes when a deadline is armed
  | overdue (now flushAt : Instant) (hpc : s.sink = .head) (hst : s.events.stage = none)
      (hd : s.deadline = some flushAt) (hnow : flushAt ≤ now) :
      SinkStep cfg s { s.flush with deadline := none }
  | wait (now : Instant) (hpc : s.sink = .head) (hst : s.events.stage = none)
      (hnow : ∀ flushAt, s.deadline = some flushAt → now < flushAt) :
      SinkStep cfg s { s with sink := .waiting }
  | receive (metrics : Metrics F) (rest : List (Metrics F)) (hpc : s.sink = .waiting)
      (hb : s.raw.chan.buf = metrics :: rest) :
      SinkStep cfg s { s with raw := s.raw.take metrics rest, sink := .writing metrics }
  | timeout (flushAt : Instant) (hpc : s.sink = .waiting) (hd : s.deadline = some flushAt) :
      SinkStep cfg s { s.flush with deadline := none, sink := .head }
  | disconnect (hpc : s.sink = .waiting) (hb : s.raw.chan.buf = [])
      (hs : s.raw.chan.senders = 0) : SinkStep cfg s { s with sink := .finalFlush }
  | write (metrics : Metrics F) (hpc : s.sink = .writing metrics)
      (hw : cfg.writeOutcome s.written.length = .ok ()) :
      SinkStep cfg s
        { s with
          written := if cfg.fileSink then s.written ++ [metrics] else s.written
          sink := .processing metrics }
  | writeFailed (metrics : Metrics F) (e : Error) (hpc : s.sink = .writing metrics)
      (hw : cfg.writeOutcome s.written.length = .error e) :
      SinkStep cfg s
        { s with
          written := if cfg.fileSink then s.written ++ [metrics] else s.written
          sink := .returning (.error e) }
  | forward (metrics : Metrics F) (hpc : s.sink = .processing metrics)
      (hmode : cfg.pushInterval = none) :
      SinkStep cfg s { s with events := s.events.offer (.interval metrics), sink := .head }
  | split (metrics : Metrics F) (interval : Duration) (now flushAt deadline : Instant)
      (hpc : s.sink = .processing metrics) (hmode : cfg.pushInterval = some interval)
      (hd : s.deadline = some flushAt) (hc : windowContextChanges s.window metrics = true)
      (harm : checkedDeadline cfg.limit now interval = .ok deadline) :
      SinkStep cfg s
        { s.flush with window := [metrics], deadline := some deadline, sink := .head }
  | join (metrics : Metrics F) (interval : Duration) (flushAt : Instant)
      (hpc : s.sink = .processing metrics) (hmode : cfg.pushInterval = some interval)
      (hd : s.deadline = some flushAt) (hc : windowContextChanges s.window metrics = false) :
      SinkStep cfg s { s with window := s.window ++ [metrics], sink := .head }
  | first (metrics : Metrics F) (interval : Duration) (now deadline : Instant)
      (hpc : s.sink = .processing metrics) (hmode : cfg.pushInterval = some interval)
      (hd : s.deadline = none) (harm : checkedDeadline cfg.limit now interval = .ok deadline) :
      SinkStep cfg s
        { s with
          window := s.window ++ [metrics], deadline := some deadline, sink := .head }
  | splitFailed (metrics : Metrics F) (interval : Duration) (now flushAt : Instant) (e : Error)
      (hpc : s.sink = .processing metrics) (hmode : cfg.pushInterval = some interval)
      (hd : s.deadline = some flushAt) (hc : windowContextChanges s.window metrics = true)
      (harm : checkedDeadline cfg.limit now interval = .error e) :
      SinkStep cfg s { s.flush with sink := .returning (.error e), overflowed := true }
  | firstFailed (metrics : Metrics F) (interval : Duration) (now : Instant) (e : Error)
      (hpc : s.sink = .processing metrics) (hmode : cfg.pushInterval = some interval)
      (hd : s.deadline = none) (harm : checkedDeadline cfg.limit now interval = .error e) :
      SinkStep cfg s
        { s with
          window := s.window ++ [metrics]
          sink := .returning (.error e)
          overflowed := true }
  | finalFlush (hpc : s.sink = .finalFlush) :
      SinkStep cfg s { s.flush with sink := .returning (.ok ()) }
  -- the loop's function returns, and drops the receiver it owns
  | return (result : Except Error Unit) (hpc : s.sink = .returning result) :
      SinkStep cfg s { s with raw := s.raw.dropReceiver, sink := .droppingTx result }
  | dropTx (result : Except Error Unit) (hpc : s.sink = .droppingTx result) :
      SinkStep cfg s { s with events := s.events.dropSender, sink := .droppingLatest result }
  | dropLatest (result : Except Error Unit) (hpc : s.sink = .droppingLatest result) :
      SinkStep cfg s
        { s with
          events := if s.events.latest then s.events.dropReceiver else s.events
          sink := .joining result }
  | joinWorker (result : Except Error Unit) (hpc : s.sink = .joining result)
      (hd : s.delivery = .done) : SinkStep cfg s { s with sink := .done result }

/-- Where the delivery worker goes on when a call has returned, whatever its result. -/
def HttpCall.next (call : HttpCall F) : DeliveryPc F :=
  match call with
  | .push _ => .receiving
  | .delete => .done

inductive DeliveryStep (cfg : ReporterConfig) (s : Reporter F) : Reporter F → Prop
  | receive (event : MetricEvent F) (rest : List (MetricEvent F))
      (hpc : s.delivery = .receiving) (hb : s.events.chan.buf = event :: rest) :
      DeliveryStep cfg s
        { s with
          events := s.events.take event rest
          delivery := .calling (.push event) 0 false
          log := s.log ++ [.call (.push event)] }
  | request (call : HttpCall F) (attempt : ℕ) (hpc : s.delivery = .calling call attempt false) :
      DeliveryStep cfg s
        { s with delivery := .calling call attempt true, log := s.log ++ [.request] }
  -- a retryable failure within the configured retries is followed by a sleep and a new attempt
  | retry (call : HttpCall F) (attempt : ℕ) (hpc : s.delivery = .calling call attempt true)
      (hlt : attempt < cfg.retries) :
      DeliveryStep cfg s
        { s with delivery := .calling call (attempt + 1) false, log := s.log ++ [.response] }
  | respond (call : HttpCall F) (attempt : ℕ) (outcome : Attempt)
      (hpc : s.delivery = .calling call attempt true)
      (hout : outcome = .failure true → cfg.retries ≤ attempt) :
      DeliveryStep cfg s
        { s with delivery := call.next, log := s.log ++ [.response, .ret] }
  -- the loop over the events ends and drops their receiver; only then is the group deleted
  | finish (hpc : s.delivery = .receiving) (hb : s.events.chan.buf = [])
      (hs : s.events.chan.senders = 0) :
      DeliveryStep cfg s
        { s with
          events := s.events.dropReceiver
          delivery := if cfg.deleteOnFinish then .calling .delete 0 false else .done
          log := if cfg.deleteOnFinish then s.log ++ [.call .delete] else s.log }

inductive ReporterStep (cfg : ReporterConfig) (s : Reporter F) : Reporter F → Prop
  | callback {s' : Reporter F} (h : CallbackStep s s') : ReporterStep cfg s s'
  | sink {s' : Reporter F} (h : SinkStep cfg s s') : ReporterStep cfg s s'
  | delivery {s' : Reporter F} (h : DeliveryStep cfg s s') : ReporterStep cfg s s'

/-- Every interleaving of the three parties, from the start of a run over `samples`. -/
def Reporter.Reachable (cfg : ReporterConfig) (samples : List (Metrics F)) (s : Reporter F) :
    Prop :=
  Relation.ReflTransGen (ReporterStep cfg) (.start cfg samples) s

end Iperf3Rs
