import Iperf3Rs.Channel
import Mathlib.Data.List.Infix

/-! `metrics_channel` and `enqueue_latest`. The bounded queue keeps the newest value: a full
queue is emptied through a spare receiver before the value is sent again. The three channel
operations of `enqueue_latest` are separate steps, between which the consumer may receive. -/

namespace Iperf3Rs

inductive MetricsQueue where
  | latest
  | all
  deriving DecidableEq

variable {α : Type*}

/-- The channel, and whether a spare receiver goes with its sender. -/
def metricsChannel (queue : MetricsQueue) : Chan α × Bool :=
  match queue with
  | .all => (⟨none, [], 1, 1⟩, false)
  | .latest => (⟨some 1, [], 1, 2⟩, true)

/-- What is left to do after the first send found the queue full. -/
inductive Enqueue (α : Type*) where
  | evict (metrics : α)
  | retry (metrics : α)

def Enqueue.metrics : Enqueue α → α
  | .evict metrics => metrics
  | .retry metrics => metrics

def enqueueStart (c : Chan α) (metrics : α) : Option (Enqueue α) × Chan α :=
  match c.trySend metrics with
  | (.ok, c) => (none, c)
  | (.full metrics, c) => (some (.evict metrics), c)
  | (.disconnected _, c) => (none, c)

/-- The result of the second send is ignored. -/
def enqueueStep (latest : Bool) (c : Chan α) : Enqueue α → Option (Enqueue α) × Chan α
  | .evict metrics => (some (.retry metrics), if latest then c.tryRecv.2 else c)
  | .retry metrics => (none, (c.trySend metrics).2)

theorem enqueueStart_chan (c : Chan α) (metrics : α) :
    (enqueueStart c metrics).2 = (c.trySend metrics).2 := by
  simp only [enqueueStart]
  split <;> simp_all

theorem enqueueStep_endpoints (latest : Bool) (c : Chan α) (stage : Enqueue α) :
    (enqueueStep latest c stage).2.senders = c.senders ∧
      (enqueueStep latest c stage).2.receivers = c.receivers := by
  cases stage <;> cases latest <;> simp [enqueueStep]

/-- `enqueue_latest` when no other party runs in between. -/
def enqueueLatest (latest : Bool) (c : Chan α) (metrics : α) : Chan α :=
  match enqueueStart c metrics with
  | (none, c) => c
  | (some stage, c) =>
    match enqueueStep latest c stage with
    | (none, c) => c
    | (some stage, c) => (enqueueStep latest c stage).2

example : (enqueueLatest true ⟨some 1, [1], 1, 2⟩ 2 : Chan ℕ).buf = [2] := by decide

/-- A queue in use: the values its one producer has offered, the call it is in the middle of,
and the values its consumer has received. -/
structure Link (α : Type*) where
  chan : Chan α
  latest : Bool
  stage : Option (Enqueue α)
  offered : List α
  taken : List α

namespace Link

def new (queue : MetricsQueue) : Link α :=
  let (chan, latest) : Chan α × Bool := metricsChannel queue
  ⟨chan, latest, none, [], []⟩

/-- The producer calls `enqueue_latest`, as far as its first send. -/
def offer (l : Link α) (metrics : α) : Link α :=
  { l with
    chan := (enqueueStart l.chan metrics).2
    stage := (enqueueStart l.chan metrics).1
    offered := l.offered ++ [metrics] }

/-- The producer goes on with the call it is in. -/
def advance (l : Link α) (stage : Enqueue α) : Link α :=
  { l with
    chan := (enqueueStep l.latest l.chan stage).2
    stage := (enqueueStep l.latest l.chan stage).1 }

/-- The consumer receives the first value of the queue. -/
def take (l : Link α) (metrics : α) (rest : List α) : Link α :=
  { l with chan := { l.chan with buf := rest }, taken := l.taken ++ [metrics] }

def dropSender (l : Link α) : Link α := { l with chan := l.chan.dropSender }

def dropReceiver (l : Link α) : Link α := { l with chan := l.chan.dropReceiver }

@[simp] theorem offer_senders (l : Link α) (metrics : α) :
    (l.offer metrics).chan.senders = l.chan.senders := by
  simp only [offer, enqueueStart_chan, Chan.trySend_senders]

@[simp] theorem offer_receivers (l : Link α) (metrics : α) :
    (l.offer metrics).chan.receivers = l.chan.receivers := by
  simp only [offer, enqueueStart_chan, Chan.trySend_receivers]

@[simp] theorem advance_senders (l : Link α) (stage : Enqueue α) :
    (l.advance stage).chan.senders = l.chan.senders :=
  (enqueueStep_endpoints l.latest l.chan stage).1

@[simp] theorem advance_receivers (l : Link α) (stage : Enqueue α) :
    (l.advance stage).chan.receivers = l.chan.receivers :=
  (enqueueStep_endpoints l.latest l.chan stage).2

/-- The value of the call in progress. -/
def pending (l : Link α) : List α := (l.stage.map Enqueue.metrics).toList

/-- The values that have been received or are still on their way. -/
def surviving (l : Link α) : List α := l.taken ++ l.chan.buf ++ l.pending

/-- The invariant of a freshness queue: what survives is a subsequence of what was offered, and
it ends with the newest value. -/
structure Fresh (l : Link α) : Prop where
  capacity : l.chan.capacity = some 1
  latest : l.latest = true
  bound : l.chan.buf.length ≤ 1
  retry : ∀ metrics, l.stage = some (.retry metrics) → l.chan.buf = []
  sublist : l.surviving.Sublist l.offered
  newest : l.surviving.getLast? = l.offered.getLast?

/-- The invariant of a queue that keeps everything as long as its receiver is connected. -/
structure Lossless (l : Link α) : Prop where
  capacity : l.chan.capacity = none
  stage : l.stage = none
  isPrefix : l.taken ++ l.chan.buf <+: l.offered
  exact : l.chan.receivers ≠ 0 → l.taken ++ l.chan.buf = l.offered

theorem fresh_new : (new .latest : Link α).Fresh := by
  refine ⟨rfl, rfl, by simp [new, metricsChannel], ?_, ?_, ?_⟩ <;>
    simp [new, metricsChannel, surviving, pending]

theorem lossless_new : (new .all : Link α).Lossless :=
  ⟨rfl, rfl, List.nil_prefix, fun _ => rfl⟩

theorem Lossless.offer {l : Link α} (h : l.Lossless) (metrics : α) :
    (l.offer metrics).Lossless := by
  by_cases hr : l.chan.receivers = 0
  · have hs : enqueueStart l.chan metrics = (none, l.chan) := by
      simp only [enqueueStart, Chan.trySend, hr, if_true]
    refine ⟨?_, ?_, ?_, ?_⟩
    · simp only [Link.offer, hs, h.capacity]
    · simp only [Link.offer, hs]
    · simp only [Link.offer, hs]
      exact h.isPrefix.trans (List.prefix_append _ _)
    · intro hne
      simp only [Link.offer, hs] at hne
      exact absurd hr hne
  · have hs : enqueueStart l.chan metrics =
        (none, { l.chan with buf := l.chan.buf ++ [metrics] }) := by
      simp only [enqueueStart, Chan.trySend_unbounded h.capacity hr]
    have he : (l.offer metrics).taken ++ (l.offer metrics).chan.buf =
        (l.offer metrics).offered := by
      simp only [Link.offer, hs, ← h.exact hr, List.append_assoc]
    refine ⟨?_, ?_, he ▸ List.prefix_rfl, fun _ => he⟩
    · simp only [Link.offer, hs, h.capacity]
    · simp only [Link.offer, hs]

theorem Lossless.take {l : Link α} (h : l.Lossless) {metrics : α} {rest : List α}
    (hb : l.chan.buf = metrics :: rest) : (l.take metrics rest).Lossless := by
  have he : (l.take metrics rest).taken ++ (l.take metrics rest).chan.buf =
      l.taken ++ l.chan.buf := by
    simp [Link.take, hb]
  exact ⟨h.capacity, h.stage, he ▸ h.isPrefix, fun hr => he ▸ h.exact hr⟩

theorem Lossless.dropSender {l : Link α} (h : l.Lossless) : l.dropSender.Lossless :=
  ⟨h.capacity, h.stage, h.isPrefix, h.exact⟩

theorem Lossless.dropReceiver {l : Link α} (h : l.Lossless) : l.dropReceiver.Lossless := by
  refine ⟨h.capacity, h.stage, h.isPrefix, fun hr => h.exact fun h0 => hr ?_⟩
  simp [Link.dropReceiver, Chan.dropReceiver, h0]

theorem Fresh.dropSender {l : Link α} (h : l.Fresh) : l.dropSender.Fresh :=
  ⟨h.capacity, h.latest, h.bound, h.retry, h.sublist, h.newest⟩

theorem Fresh.dropReceiver {l : Link α} (h : l.Fresh) : l.dropReceiver.Fresh :=
  ⟨h.capacity, h.latest, h.bound, h.retry, h.sublist, h.newest⟩

theorem Fresh.offer {l : Link α} (h : l.Fresh) (hst : l.stage = none)
    (hr : l.chan.receivers ≠ 0) (metrics : α) : (l.offer metrics).Fresh := by
  have hsurv : l.surviving = l.taken ++ l.chan.buf := by simp [surviving, pending, hst]
  have hsub := h.sublist
  rw [hsurv] at hsub
  cases hb : l.chan.buf with
  | nil =>
    have hs : enqueueStart l.chan metrics = (none, { l.chan with buf := [metrics] }) := by
      simp only [enqueueStart, Chan.trySend_nil h.capacity hr hb]
    have he : (l.offer metrics).surviving = l.taken ++ [metrics] := by
      simp [surviving, pending, Link.offer, hs]
    refine ⟨?_, h.latest, ?_, ?_, ?_, ?_⟩
    · simp only [Link.offer, hs, h.capacity]
    · simp [Link.offer, hs]
    · simp [Link.offer, hs]
    · rw [he]
      simp only [hb, List.append_nil] at hsub
      exact hsub.append_right [metrics]
    · rw [he]
      simp [Link.offer]
  | cons x rest =>
    have hs : enqueueStart l.chan metrics = (some (.evict metrics), l.chan) := by
      simp [enqueueStart, Chan.trySend, Chan.isFull, h.capacity, hr, hb]
    have he : (l.offer metrics).surviving = (l.taken ++ l.chan.buf) ++ [metrics] := by
      simp [surviving, pending, Link.offer, hs, Enqueue.metrics]
    refine ⟨?_, h.latest, ?_, ?_, ?_, ?_⟩
    · simp only [Link.offer, hs, h.capacity]
    · simpa only [Link.offer, hs] using h.bound
    · simp [Link.offer, hs]
    · rw [he]
      exact hsub.append_right [metrics]
    · rw [he]
      simp [Link.offer]

theorem Fresh.advance {l : Link α} (h : l.Fresh) {stage : Enqueue α} (hst : l.stage = some stage)
    (hr : l.chan.receivers ≠ 0) : (l.advance stage).Fresh := by
  have hsurv : l.surviving = l.taken ++ l.chan.buf ++ [stage.metrics] := by
    simp [surviving, pending, hst]
  have hsub := h.sublist
  have hnew := h.newest
  rw [hsurv] at hsub hnew
  cases stage with
  | evict metrics =>
    have htail : l.chan.buf.tail = [] := by
      have hlen := h.bound
      rw [← List.length_eq_zero_iff, List.length_tail]
      omega
    have he : (l.advance (.evict metrics)).surviving = l.taken ++ [metrics] := by
      simp [surviving, pending, Link.advance, enqueueStep, h.latest, htail, Enqueue.metrics]
    refine ⟨?_, h.latest, ?_, ?_, ?_, ?_⟩
    · simp [Link.advance, enqueueStep, h.latest, h.capacity]
    · simp [Link.advance, enqueueStep, h.latest, htail]
    · simp [Link.advance, enqueueStep, h.latest, htail]
    · rw [he]
      exact ((List.sublist_append_left _ _).append_right [metrics]).trans hsub
    · rw [he]
      simpa [Link.advance, Enqueue.metrics] using hnew
  | retry metrics =>
    have hb := h.retry metrics hst
    have hs := Chan.trySend_nil h.capacity hr hb metrics
    have he : (l.advance (.retry metrics)).surviving = l.taken ++ [metrics] := by
      simp [surviving, pending, Link.advance, enqueueStep, hs]
    simp only [hb, List.append_nil] at hsub hnew
    refine ⟨?_, h.latest, ?_, ?_, ?_, ?_⟩
    · simp [Link.advance, enqueueStep, h.capacity]
    · simp [Link.advance, enqueueStep, hs]
    · simp [Link.advance, enqueueStep]
    · rw [he]
      exact hsub
    · rw [he]
      exact hnew

theorem Fresh.take {l : Link α} (h : l.Fresh) {metrics : α} {rest : List α}
    (hb : l.chan.buf = metrics :: rest) : (l.take metrics rest).Fresh := by
  have he : (l.take metrics rest).surviving = l.surviving := by
    simp [surviving, pending, Link.take, hb]
  have hlen := h.bound
  rw [hb, List.length_cons] at hlen
  refine ⟨h.capacity, h.latest, ?_, ?_, he ▸ h.sublist, he ▸ h.newest⟩
  · change rest.length ≤ 1
    omega
  · intro value hst
    have hh := h.retry value hst
    simp [hb] at hh

/-- The invariant `metrics_channel` chooses with the kind of the queue. -/
def Sound (queue : MetricsQueue) (l : Link α) : Prop :=
  match queue with
  | .latest => l.Fresh
  | .all => l.Lossless ∧ l.latest = false

theorem sound_new (queue : MetricsQueue) : (new queue : Link α).Sound queue := by
  cases queue with
  | latest => exact fresh_new
  | all => exact ⟨lossless_new, rfl⟩

theorem Sound.latest {queue : MetricsQueue} {l : Link α} (h : l.Sound queue) :
    l.latest = decide (queue = .latest) := by
  cases queue with
  | latest => exact Fresh.latest h
  | all => exact h.2

theorem Sound.offer {queue : MetricsQueue} {l : Link α} (h : l.Sound queue)
    (hst : l.stage = none) (hr : queue = .latest → l.chan.receivers ≠ 0) (metrics : α) :
    (l.offer metrics).Sound queue := by
  cases queue with
  | latest => exact Fresh.offer h hst (hr rfl) metrics
  | all => exact ⟨h.1.offer metrics, h.2⟩

theorem Sound.advance {queue : MetricsQueue} {l : Link α} (h : l.Sound queue)
    {stage : Enqueue α} (hst : l.stage = some stage)
    (hr : queue = .latest → l.chan.receivers ≠ 0) : (l.advance stage).Sound queue := by
  cases queue with
  | latest => exact Fresh.advance h hst (hr rfl)
  | all =>
    have hn := h.1.stage
    rw [hst] at hn
    cases hn

theorem Sound.take {queue : MetricsQueue} {l : Link α} (h : l.Sound queue) {metrics : α}
    {rest : List α} (hb : l.chan.buf = metrics :: rest) : (l.take metrics rest).Sound queue := by
  cases queue with
  | latest => exact Fresh.take h hb
  | all => exact ⟨h.1.take hb, h.2⟩

theorem Sound.dropSender {queue : MetricsQueue} {l : Link α} (h : l.Sound queue) :
    l.dropSender.Sound queue := by
  cases queue with
  | latest => exact Fresh.dropSender h
  | all => exact ⟨h.1.dropSender, h.2⟩

theorem Sound.dropReceiver {queue : MetricsQueue} {l : Link α} (h : l.Sound queue) :
    l.dropReceiver.Sound queue := by
  cases queue with
  | latest => exact Fresh.dropReceiver h
  | all => exact ⟨h.1.dropReceiver, h.2⟩

/-- What a consumer that has seen the end of its queue knows it has received. -/
structure Delivered (queue : MetricsQueue) (l : Link α) : Prop where
  sublist : l.taken.Sublist l.offered
  newest : l.taken.getLast? = l.offered.getLast?
  complete : queue = .all → l.taken = l.offered

theorem Delivered.dropReceiver {queue : MetricsQueue} {l : Link α} (h : l.Delivered queue) :
    l.dropReceiver.Delivered queue :=
  ⟨h.sublist, h.newest, h.complete⟩

theorem Sound.delivered {queue : MetricsQueue} {l : Link α} (h : l.Sound queue)
    (hst : l.stage = none) (hb : l.chan.buf = []) (hr : l.chan.receivers ≠ 0) :
    l.Delivered queue := by
  cases queue with
  | latest =>
    have hs : l.surviving = l.taken := by simp [surviving, pending, hst, hb]
    refine ⟨?_, ?_, fun he => by cases he⟩
    · simpa only [hs] using Fresh.sublist h
    · simpa only [hs] using Fresh.newest h
  | all =>
    have he : l.taken = l.offered := by simpa only [hb, List.append_nil] using h.1.exact hr
    exact ⟨he ▸ List.Sublist.refl _, he ▸ rfl, fun _ => he⟩

end Link

end Iperf3Rs
