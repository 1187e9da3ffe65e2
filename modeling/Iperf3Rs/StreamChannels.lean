import Iperf3Rs.MetricsStream
import Iperf3Rs.WindowPartition

/-! What every step of a stream's parties keeps of its two channels: who holds which end, and
that nothing is lost or reordered between what is sent and what is received. -/

namespace Iperf3Rs

variable {F : Type} [F64 F]

namespace StreamRun

def connected (s : StreamRun F) : Bool := s.events.receivers != 0

/-- The event channel has taken what is sent. -/
def push (s : StreamRun F) (emitted : List (Emitted F)) : StreamRun F :=
  { s with
    events := { s.events with buf := s.events.buf ++ emitted.map Emitted.event }
    accepted := s.accepted ++ emitted }

theorem push_nil (s : StreamRun F) : s.push [] = s := by
  simp [push]

/-- What goes out with a flush of the window. -/
def outgoing (s : StreamRun F) : List (Emitted F) :=
  if s.connected then (flushedWindow s.window).toList.map .window else []

theorem outgoing_connected {s : StreamRun F} (h : s.outgoing ≠ []) : s.connected = true := by
  by_contra hc
  exact h (if_neg hc)

theorem send_eq {s : StreamRun F} (hcap : s.events.capacity = none) (emitted : Emitted F) :
    s.send emitted = (s.connected, if s.connected then s.push [emitted] else s) := by
  by_cases hr : s.events.receivers = 0
  · simp [send, Chan.trySend, connected, hr]
  · simp [send, Chan.trySend_unbounded hcap hr, connected, hr, push]

theorem flush_eq {s : StreamRun F} (hcap : s.events.capacity = none) :
    s.flush = (s.connected || s.window.isEmpty, { s.push s.outgoing with window := [] }) := by
  by_cases hw : s.window = []
  · have hs : ({ s with window := [] } : StreamRun F) = s := by
      rw [← hw]
    simp [flush, outgoing, hw, push_nil, hs]
  · obtain ⟨w, he, -⟩ := flushedWindow_of_ne_nil hw
    have hempty : s.window.isEmpty = false := List.isEmpty_eq_false_iff.mpr hw
    have hsend := send_eq (s := { s with window := [] }) hcap (.window w)
    cases hc : s.connected with
    | false =>
      have hc' : ({ s with window := [] } : StreamRun F).connected = false := hc
      rw [hc'] at hsend
      simp [flush, he, hsend, outgoing, hc, hempty, push_nil]
    | true =>
      have hc' : ({ s with window := [] } : StreamRun F).connected = true := hc
      rw [hc'] at hsend
      simp [flush, he, hsend, outgoing, hc, push]

theorem flushThen_cases {s : StreamRun F} (hcap : s.events.capacity = none)
    (next : StreamRun F → StreamRun F) :
    (s.flushThen next = next { s.push s.outgoing with window := [] } ∧
        (s.connected || s.window.isEmpty) = true) ∨
      (s.flushThen next = { s with window := [], worker := .finalFlush } ∧
        s.connected = false ∧ (s.connected || s.window.isEmpty) = false) := by
  rw [flushThen, flush_eq hcap]
  cases hgoes : s.connected || s.window.isEmpty with
  | true => exact .inl ⟨rfl, rfl⟩
  | false =>
    have hc := (Bool.or_eq_false_iff.mp hgoes).1
    have hout : s.outgoing = [] := by simp [outgoing, hc]
    refine .inr ⟨?_, hc, rfl⟩
    rw [hout, push_nil]

end StreamRun

namespace StreamPc

omit [F64 F] in
def result : StreamPc F → Option (Except Error Unit)
  | .dropping r | .closing r | .done r => some r
  | _ => none

omit [F64 F] in
def holdsTx (mode : MetricsMode) : StreamPc F → Bool
  | .closing _ => !mode.dropsTxFirst
  | .done _ => false
  | _ => true

omit [F64 F] in
def holdsRx (mode : MetricsMode) : StreamPc F → Bool
  | .closing _ => mode.dropsTxFirst
  | .done _ => false
  | _ => true

omit [F64 F] in
/-- The worker is still in its function, or has just left it. -/
def owns : StreamPc F → Bool
  | .closing _ | .done _ => false
  | _ => true

omit [F64 F] in
theorem owns_left (mode : MetricsMode) : (mode.left : StreamPc F).owns = true := by
  cases mode <;> rfl

omit [F64 F] in
theorem holdsTx_of_owns {pc : StreamPc F} (mode : MetricsMode) (h : pc.owns = true) :
    pc.holdsTx mode = true ∧ pc.holdsRx mode = true := by
  cases pc <;> simp_all [owns, holdsTx, holdsRx]

end StreamPc

/-- The effects of a worker step on the channels: nothing but events sent, a sample received, or
an end dropped. -/
inductive StreamEffect (cfg : StreamConfig) (s : StreamRun F) : StreamRun F → Prop
  | sent (emitted : List (Emitted F)) (pc : StreamPc F) (window : List (Metrics F))
      (deadline : Option Instant) (hfrom : s.worker.owns = true) (hto : pc.owns = true)
      (hconn : emitted ≠ [] → s.connected = true) :
      StreamEffect cfg s
        { s.push emitted with worker := pc, window := window, deadline := deadline }
  | received (now : Instant) (metrics : Metrics F) (rest : List (Metrics F))
      (hfrom : s.worker = .waiting now) (hb : s.raw.chan.buf = metrics :: rest) :
      StreamEffect cfg s
        { s with raw := s.raw.take metrics rest, worker := .processing now metrics }
  | dropFirst (result : Except Error Unit) (hpc : s.worker = .dropping result) :
      StreamEffect cfg s
        { s with
          raw := if cfg.mode.dropsTxFirst then s.raw else s.raw.dropReceiver
          events := if cfg.mode.dropsTxFirst then s.events.dropSender else s.events
          worker := .closing result }
  | dropSecond (result : Except Error Unit) (hpc : s.worker = .closing result) :
      StreamEffect cfg s
        { s with
          raw := if cfg.mode.dropsTxFirst then s.raw.dropReceiver else s.raw
          events := if cfg.mode.dropsTxFirst then s.events else s.events.dropSender
          worker := .done result }

theorem StreamEffect.local {cfg : StreamConfig} {s : StreamRun F} (pc : StreamPc F)
    (window : List (Metrics F)) (deadline : Option Instant) (hfrom : s.worker.owns = true)
    (hto : pc.owns = true) :
    StreamEffect cfg s { s with worker := pc, window := window, deadline := deadline } := by
  have h : StreamEffect cfg s _ :=
    .sent [] pc window deadline hfrom hto fun h => absurd rfl h
  rwa [StreamRun.push_nil] at h

theorem StreamEffect.arm {cfg : StreamConfig} {s : StreamRun F} (emitted : List (Emitted F))
    (hfrom : s.worker.owns = true) (hconn : emitted ≠ [] → s.connected = true)
    (cleared window : List (Metrics F)) (deadline : Except Error Instant) :
    StreamEffect cfg s
      (StreamRun.arm { s.push emitted with window := cleared } deadline window) := by
  cases deadline with
  | error e => exact .sent emitted (.dropping (.error e)) _ _ hfrom rfl hconn
  | ok deadline => exact .sent emitted .head _ _ hfrom rfl hconn

theorem StreamWorkerStep.effect {cfg : StreamConfig} {s s' : StreamRun F}
    (h : StreamWorkerStep cfg s s') (hcap : s.events.capacity = none) : StreamEffect cfg s s' := by
  have howns : ∀ pc : StreamPc F, s.worker = pc → pc.owns = true → s.worker.owns = true := by
    rintro pc rfl howns
    exact howns
  have hgone : s.worker.owns = true →
      StreamEffect cfg s { s with window := [], worker := .finalFlush } := fun hown =>
    .local .finalFlush [] s.deadline hown rfl
  have hclose : s.worker.owns = true → StreamEffect cfg s s.closeWindow := by
    intro hown
    rcases StreamRun.flushThen_cases hcap _ with ⟨he, -⟩ | ⟨he, -⟩ <;>
      rw [StreamRun.closeWindow, he]
    · exact .sent _ .head [] none hown rfl StreamRun.outgoing_connected
    · exact hgone hown
  cases h with
  | skip hpc hmode => exact .local _ _ _ (howns _ hpc rfl) rfl
  | overdue now flushAt hpc hd hnow => exact hclose (howns _ hpc rfl)
  | wait now hpc hmode hnow => exact .local _ _ _ (howns _ hpc rfl) rfl
  | receive now metrics rest hpc hb => exact .received now metrics rest hpc hb
  | timeout now flushAt hpc hd => exact hclose (howns _ hpc rfl)
  | disconnect now hpc hb hs =>
    exact .local _ _ _ (howns _ hpc rfl) (StreamPc.owns_left cfg.mode)
  | forward now metrics hpc hmode =>
    rw [StreamRun.send_eq hcap]
    cases hc : s.connected with
    | true => exact .sent [.sample metrics] .head _ _ (howns _ hpc rfl) rfl fun _ => hc
    | false => exact .local _ _ _ (howns _ hpc rfl) rfl
  | first now rearm metrics interval hpc hmode hd =>
    have harm : StreamEffect cfg s _ := .arm [] (howns _ hpc rfl) (fun h => absurd rfl h) s.window
      (s.window ++ [metrics])
      (checkedDeadline cfg.limit rearm interval)
    rwa [StreamRun.push_nil] at harm
  | join now flushAt metrics interval hpc hmode hd hc => exact .local _ _ _ (howns _ hpc rfl) rfl
  | split now flushAt rearm metrics interval hpc hmode hd hc =>
    rcases StreamRun.flushThen_cases hcap _ with ⟨he, -⟩ | ⟨he, -⟩ <;> rw [he]
    · exact .arm _ (howns _ hpc rfl) StreamRun.outgoing_connected _ _ _
    · exact hgone (howns _ hpc rfl)
  | finalFlush hpc =>
    rw [StreamRun.flush_eq hcap]
    exact .sent _ (.dropping (.ok ())) [] _ (howns _ hpc rfl) rfl StreamRun.outgoing_connected
  | dropFirst result hpc => exact .dropFirst result hpc
  | dropSecond result hpc => exact .dropSecond result hpc

/-- The ends that are held, and what is between them. -/
structure StreamInv (cfg : StreamConfig) (samples : List (Metrics F)) (s : StreamRun F) :
    Prop where
  capacity : s.events.capacity = none
  lossless : s.raw.Lossless
  offered : s.raw.offered ++ s.todo = samples
  rawSenders : s.raw.chan.senders = if s.registered then 1 else 0
  finished : s.registered = false → s.todo = []
  rawReceivers : s.raw.chan.receivers = if s.worker.holdsRx cfg.mode then 1 else 0
  eventSenders : s.events.senders = if s.worker.holdsTx cfg.mode then 1 else 0
  delivered : s.received ++ s.events.buf = s.accepted.map Emitted.event
  closed : .error .closed ∈ s.replies → s.events.senders = 0 ∧ s.events.buf = []
  final : s.replies.Pairwise fun before after =>
    before = .error .closed → after = .error .closed ∨ after = .error .invalidTimeout

theorem StreamInv.start (cfg : StreamConfig) (samples : List (Metrics F)) :
    StreamInv cfg samples (.start samples) where
  capacity := rfl
  lossless := Link.lossless_new
  offered := rfl
  rawSenders := rfl
  finished := nofun
  rawReceivers := rfl
  eventSenders := rfl
  delivered := rfl
  closed := nofun
  final := .nil

variable {cfg : StreamConfig} {samples : List (Metrics F)} {s s' : StreamRun F}

theorem StreamInv.callback (hi : StreamInv cfg samples s) (h : StreamCallbackStep s s') :
    StreamInv cfg samples s' := by
  cases h with
  | emit metrics rest hreg hst htodo =>
    refine { hi with
      lossless := hi.lossless.offer metrics
      offered := ?_
      rawSenders := (Link.offer_senders _ _).trans hi.rawSenders
      finished := fun h => absurd (hreg.symm.trans h) nofun
      rawReceivers := (Link.offer_receivers _ _).trans hi.rawReceivers }
    show (s.raw.offered ++ [metrics]) ++ rest = samples
    rw [List.append_assoc, List.singleton_append, ← htodo, hi.offered]
  | enqueue stage hst => exact absurd (hi.lossless.stage.symm.trans hst) nofun
  | unregister hreg hst htodo =>
    have hsenders := hi.rawSenders
    rw [hreg] at hsenders
    refine { hi with
      lossless := hi.lossless.dropSender
      rawSenders := ?_
      finished := fun _ => htodo }
    show s.raw.chan.senders - 1 = _
    rw [hsenders]
    rfl

theorem StreamInv.effect (hi : StreamInv cfg samples s) (h : StreamEffect cfg s s') :
    StreamInv cfg samples s' := by
  cases h with
  | sent emitted pc window deadline hfrom hto hconn =>
    have hfrom := StreamPc.holdsTx_of_owns cfg.mode hfrom
    have hto := StreamPc.holdsTx_of_owns cfg.mode hto
    have hsenders := hi.eventSenders
    have hreceivers := hi.rawReceivers
    rw [hfrom.1] at hsenders
    rw [hfrom.2] at hreceivers
    refine { hi with rawReceivers := ?_, eventSenders := ?_, delivered := ?_, closed := ?_ }
    · show s.raw.chan.receivers = _
      rw [hreceivers, hto.2]
    · show s.events.senders = _
      rw [hsenders, hto.1]
    · show s.received ++ (s.events.buf ++ emitted.map Emitted.event) = _
      rw [← List.append_assoc, hi.delivered]
      simp [StreamRun.push]
    · intro hclosed
      have hzero := (hi.closed hclosed).1
      rw [hsenders] at hzero
      cases hzero
  | received now metrics rest hfrom hb =>
    have hreceivers := hi.rawReceivers
    have hsenders := hi.eventSenders
    rw [hfrom] at hreceivers hsenders
    exact { hi with
      lossless := hi.lossless.take hb
      rawReceivers := hreceivers
      eventSenders := hsenders }
  | dropFirst result hpc =>
    have hreceivers := hi.rawReceivers
    have hsenders := hi.eventSenders
    rw [hpc] at hreceivers hsenders
    cases hmode : cfg.mode.dropsTxFirst with
    | true =>
      refine { hi with
        rawReceivers := ?_
        eventSenders := ?_
        closed := fun hclosed => ⟨?_, (hi.closed hclosed).2⟩ }
      · simpa [StreamPc.holdsRx, hmode] using hreceivers
      · simp [Chan.dropSender, hsenders, StreamPc.holdsTx, hmode]
      · simp [Chan.dropSender, hsenders, StreamPc.holdsTx]
    | false =>
      refine { hi with
        lossless := hi.lossless.dropReceiver
        rawReceivers := ?_
        eventSenders := ?_ }
      · simp [Link.dropReceiver, Chan.dropReceiver, hreceivers, StreamPc.holdsRx, hmode]
      · simpa [StreamPc.holdsTx, hmode] using hsenders
  | dropSecond result hpc =>
    have hreceivers := hi.rawReceivers
    have hsenders := hi.eventSenders
    rw [hpc] at hreceivers hsenders
    cases hmode : cfg.mode.dropsTxFirst with
    | true =>
      refine { hi with
        lossless := hi.lossless.dropReceiver
        rawReceivers := ?_
        eventSenders := ?_ }
      · simp [Link.dropReceiver, Chan.dropReceiver, hreceivers, StreamPc.holdsRx, hmode]
      · simpa [StreamPc.holdsTx, hmode] using hsenders
    | false =>
      refine { hi with
        rawReceivers := ?_
        eventSenders := ?_
        closed := fun hclosed => ⟨?_, (hi.closed hclosed).2⟩ }
      · simpa [StreamPc.holdsRx, hmode] using hreceivers
      · simp [Chan.dropSender, hsenders, StreamPc.holdsTx, hmode]
      · simp [Chan.dropSender, hsenders, StreamPc.holdsTx, hmode]

theorem StreamInv.consumer (hi : StreamInv cfg samples s) (h : StreamConsumerStep cfg s s') :
    StreamInv cfg samples s' := by
  have hfinal : ∀ answer : Except MetricsRecvError (MetricEvent F), (.error .closed ∈ s.replies →
      answer = .error .closed ∨ answer = .error .invalidTimeout) →
      (s.replies ++ [answer]).Pairwise fun before after =>
        before = .error .closed → after = .error .closed ∨ after = .error .invalidTimeout := by
    intro answer hanswer
    refine List.pairwise_append.mpr ⟨hi.final, List.pairwise_singleton _ _, ?_⟩
    intro before hbefore after hafter hclosed
    rw [List.mem_singleton.mp hafter]
    exact hanswer (hclosed ▸ hbefore)
  have hreply : ∀ e, (e = .closed → s.events.senders = 0 ∧ s.events.buf = []) →
      (.error .closed ∈ s.replies → e = .closed ∨ e = .invalidTimeout) →
      StreamInv cfg samples (s.reply (.error e)) := by
    intro e hclosed he
    refine { hi with
      delivered := ?_
      closed := ?_
      final := hfinal _ fun hmem => (he hmem).imp (congrArg _) (congrArg _) }
    · show (s.replies ++ [Except.error e]).filterMap Except.toOption ++ s.events.buf =
        s.accepted.map Emitted.event
      rw [List.filterMap_append, ← hi.delivered]
      simp [Except.toOption, StreamRun.received]
    · intro hmem
      rcases List.mem_append.mp hmem with hmem | hmem
      · exact hi.closed hmem
      · rw [List.mem_singleton, Except.error.injEq] at hmem
        exact hclosed hmem.symm
  have hopen : s.events.senders ≠ 0 → .error .closed ∉ s.replies := fun hs hmem =>
    hs (hi.closed hmem).1
  cases h with
  | event call now event rest hr hask hb =>
    have hopen : .error .closed ∉ s.replies := by
      intro hmem
      have hempty := (hi.closed hmem).2
      rw [hb] at hempty
      cases hempty
    refine { hi with
      delivered := ?_
      closed := ?_
      final := hfinal _ fun hmem => absurd hmem hopen }
    · show (s.replies ++ [Except.ok event]).filterMap Except.toOption ++ rest =
        s.accepted.map Emitted.event
      rw [List.filterMap_append, ← hi.delivered, hb]
      simp [Except.toOption, StreamRun.received]
    · intro hmem
      rcases List.mem_append.mp hmem with hmem | hmem
      · exact absurd hmem hopen
      · rw [List.mem_singleton] at hmem
        cases hmem
  | closed call now hr hask hb hs => exact hreply _ (fun _ => ⟨hs, hb⟩) fun _ => .inl rfl
  | empty hr hb hs => exact hreply _ nofun fun hmem => absurd hmem (hopen hs)
  | timeout timeout now hr hask hb hs => exact hreply _ nofun fun hmem => absurd hmem (hopen hs)
  | invalidTimeout timeout now hr hask => exact hreply _ nofun fun _ => .inr rfl
  | drop hr => exact { hi with }

theorem StreamRun.Reachable.inv (h : StreamRun.Reachable cfg samples s) :
    StreamInv cfg samples s := by
  induction h with
  | refl => exact .start cfg samples
  | tail _ hstep ih =>
    cases hstep with
    | callback h => exact ih.callback h
    | worker h => exact ih.effect (h.effect ih.capacity)
    | consumer h => exact ih.consumer h

end Iperf3Rs
