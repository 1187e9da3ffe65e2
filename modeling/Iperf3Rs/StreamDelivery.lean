import Iperf3Rs.StreamRefinement

/-! What the application gets from a stream, and that it cannot hold up the run: neither the
callback nor the worker ever waits for it. -/

namespace Iperf3Rs

variable {F : Type} [F64 F] {cfg : StreamConfig} {samples : List (Metrics F)}
  {s s' : StreamRun F}

def MetricsMode.Complete (mode : MetricsMode) (samples : List (Metrics F))
    (events : List (MetricEvent F)) : Prop :=
  match mode with
  | .disabled => events = []
  | .interval => events = samples.map .interval
  | .window _ => ∃ windows : List (FlushedWindow F),
      events = windows.map (fun w => .window w.metrics) ∧
        OrderedPartition Metrics.context samples (windows.map FlushedWindow.samples)

/-- In a stream of intervals, what the worker has taken is sent but for the sample in its hand.
The loop is left when the channel is disconnected, or when the application has gone. -/
structure ForwardsInv (samples : List (Metrics F)) (s : StreamRun F) : Prop where
  idle : s.deadline = none
  looping : ∀ hand, s.worker.hand = some hand →
    s.raw.taken.map .sample = s.accepted ++ hand.map .sample
  returned : ∀ result, s.worker.result = some result →
    result = .ok () ∧ (s.connected = true → s.accepted = samples.map .sample)
  progress : s.worker.hand ≠ none ∨ s.worker.result ≠ none

theorem ForwardsInv.of_looping (hand : List (Metrics F)) (hidle : s.deadline = none)
    (hhand : s.worker.hand = some hand)
    (h : s.raw.taken.map .sample = s.accepted ++ hand.map .sample) : ForwardsInv samples s where
  idle := hidle
  looping hand' hhand' := by
    obtain rfl := Option.some.inj (hhand.symm.trans hhand')
    exact h
  returned result hresult := by
    rw [(StreamPc.of_hand hhand).1] at hresult
    cases hresult
  progress := .inl (by simp [hhand])

theorem ForwardsInv.of_returned (hidle : s.deadline = none)
    (hresult : s.worker.result = some (.ok ()))
    (h : s.connected = true → s.accepted = samples.map .sample) : ForwardsInv samples s where
  idle := hidle
  looping hand hhand := by
    rw [(StreamPc.of_hand hhand).1] at hresult
    cases hresult
  returned result hresult' := ⟨Option.some.inj (hresult'.symm.trans hresult), h⟩
  progress := .inr (by simp [hresult])

theorem ForwardsInv.keep (hf : ForwardsInv samples s) (hworker : s'.worker = s.worker)
    (hdeadline : s'.deadline = s.deadline) (htaken : s'.raw.taken = s.raw.taken)
    (haccepted : s'.accepted = s.accepted)
    (hconnected : s'.connected = true → s.connected = true) : ForwardsInv samples s' := by
  obtain ⟨hidle, hlooping, hreturned, hprogress⟩ := hf
  refine ⟨hdeadline.trans hidle, ?_, ?_, hworker ▸ hprogress⟩
  · rw [hworker, htaken, haccepted]
    exact hlooping
  · intro result hresult
    obtain ⟨hok, hwhole⟩ := hreturned result (hworker ▸ hresult)
    exact ⟨hok, fun hc => haccepted.trans (hwhole (hconnected hc))⟩

/-- What the worker knows when its channel is empty and disconnected. -/
theorem StreamInv.drained (hi : StreamInv cfg samples s) (hown : s.worker.owns = true)
    (hb : s.raw.chan.buf = []) (hs : s.raw.chan.senders = 0) : s.raw.taken = samples := by
  have hreceivers := hi.rawReceivers
  rw [(StreamPc.holdsTx_of_owns cfg.mode hown).2] at hreceivers
  have hexact := hi.lossless.exact (by rw [hreceivers]; decide)
  have hregistered : s.registered = false := by
    by_contra hreg
    have hsenders := hi.rawSenders
    rw [hs, if_pos (Bool.eq_true_of_not_eq_false hreg)] at hsenders
    cases hsenders
  have hoffered := hi.offered
  rwa [hi.finished hregistered, List.append_nil, ← hexact, hb, List.append_nil] at hoffered

theorem ForwardsInv.worker (hi : StreamInv cfg samples s) (hmode : cfg.mode = .interval)
    (hf : ForwardsInv samples s) (h : StreamWorkerStep cfg s s') : ForwardsInv samples s' := by
  cases h with
  | skip hpc hmode' => cases hmode.symm.trans hmode'
  | overdue now flushAt hpc hd hnow => cases hf.idle.symm.trans hd
  | wait now hpc hmode' hnow =>
    exact .of_looping [] hf.idle rfl (hf.looping [] (by rw [hpc]; rfl))
  | receive now metrics rest hpc hb =>
    refine .of_looping [metrics] hf.idle rfl ?_
    have hsent := hf.looping [] (by rw [hpc]; rfl)
    show (s.raw.taken ++ [metrics]).map .sample = s.accepted ++ _
    rw [List.map_append, hsent]
    simp
  | timeout now flushAt hpc hd => cases hf.idle.symm.trans hd
  | disconnect now hpc hb hs =>
    have hsent := hf.looping [] (by rw [hpc]; rfl)
    rw [hi.drained (by rw [hpc]; rfl) hb hs, List.map_nil, List.append_nil] at hsent
    rw [hmode]
    exact .of_returned hf.idle rfl fun _ => hsent.symm
  | forward now metrics hpc hmode' =>
    have hsent := hf.looping [metrics] (by rw [hpc]; rfl)
    rw [StreamRun.send_eq hi.capacity]
    cases hc : s.connected with
    | true =>
      refine .of_looping [] hf.idle rfl ?_
      simpa [StreamRun.push] using hsent
    | false => exact .of_returned hf.idle rfl fun hc' => (by cases hc.symm.trans hc')
  | first now rearm metrics interval hpc hmode' => cases hmode.symm.trans hmode'
  | join now flushAt metrics interval hpc hmode' =>
    cases hmode.symm.trans hmode'
  | split now flushAt rearm metrics interval hpc hmode' =>
    cases hmode.symm.trans hmode'
  | finalFlush hpc =>
    have hprogress := hf.progress
    rw [hpc] at hprogress
    simp [StreamPc.hand, StreamPc.result] at hprogress
  | dropFirst result hpc =>
    obtain ⟨rfl, hwhole⟩ := hf.returned result (by rw [hpc]; rfl)
    rw [hmode]
    exact .of_returned hf.idle rfl hwhole
  | dropSecond result hpc =>
    obtain ⟨rfl, hwhole⟩ := hf.returned result (by rw [hpc]; rfl)
    rw [hmode]
    exact .of_returned hf.idle rfl hwhole

theorem StreamRun.Reachable.forwards (hmode : cfg.mode = .interval)
    (h : StreamRun.Reachable cfg samples s) : ForwardsInv samples s := by
  induction h with
  | refl => exact .of_looping [] rfl rfl rfl
  | tail hbefore hstep ih =>
    have hi := StreamRun.Reachable.inv hbefore
    cases hstep with
    | callback h =>
      cases h with
      | emit metrics rest hreg hst htodo => exact ih.keep rfl rfl rfl rfl id
      | enqueue stage hst => exact absurd (hi.lossless.stage.symm.trans hst) nofun
      | unregister hreg hst htodo => exact ih.keep rfl rfl rfl rfl id
    | worker h => exact ih.worker hi hmode h
    | consumer h =>
      cases h with
      | drop hr =>
        refine ih.keep rfl rfl rfl rfl fun _ => ?_
        simp only [StreamRun.connected, bne_iff_ne]
        exact hr
      | _ => exact ih.keep rfl rfl rfl rfl id

/-- A worker that is given nothing to do. -/
structure DisabledInv (s : StreamRun F) : Prop where
  accepted : s.accepted = []
  worker : s.worker = .head ∨ s.worker.result = some (.ok ())
  deadline : s.deadline = none

theorem StreamRun.Reachable.disabled (hmode : cfg.mode = .disabled)
    (h : StreamRun.Reachable cfg samples s) : DisabledInv s := by
  induction h with
  | refl => exact ⟨rfl, .inl rfl, rfl⟩
  | tail hbefore hstep ih =>
    obtain ⟨haccepted, hworker, hdeadline⟩ := ih
    cases hstep with
    | callback h => cases h <;> exact ⟨haccepted, hworker, hdeadline⟩
    | consumer h => cases h <;> exact ⟨haccepted, hworker, hdeadline⟩
    | worker h =>
      cases h with
      | skip hpc => exact ⟨haccepted, .inr rfl, hdeadline⟩
      | overdue now flushAt hpc hd => exact absurd (hdeadline.symm.trans hd) nofun
      | wait now hpc hmode' => exact absurd hmode hmode'
      | dropFirst result hpc =>
        rw [hpc] at hworker
        exact ⟨haccepted, .inr (hworker.resolve_left nofun), hdeadline⟩
      | dropSecond result hpc =>
        rw [hpc] at hworker
        exact ⟨haccepted, .inr (hworker.resolve_left nofun), hdeadline⟩
      | _ => simp_all [StreamPc.result]

/-- The worker has got to its end in order, the application being there. -/
theorem StreamRun.Reachable.complete {v : Instant}
    (hvalid : cfg.mode.validate cfg.limit v = .ok ()) (h : StreamRun.Reachable cfg samples s)
    (hresult : s.worker.result = some (.ok ())) (hconnected : s.connected = true) :
    cfg.mode.Complete samples (s.accepted.map Emitted.event) := by
  cases hmode : cfg.mode with
  | disabled =>
    rw [(h.disabled hmode).accepted]
    rfl
  | interval =>
    rw [((h.forwards hmode).returned _ hresult).2 hconnected]
    simp [MetricsMode.Complete, Emitted.event]
  | window interval =>
    cases h.follows hmode hvalid with
    | looping schedule w hand hpc =>
      rw [(StreamPc.of_hand hpc).1] at hresult
      cases hresult
    | leaving schedule t w w' hpc =>
      rw [hpc] at hresult
      cases hresult
    | returned schedule result w hpc hconsumer harms hrun haccepted =>
      obtain rfl := Option.some.inj (hpc.symm.trans hresult)
      have hsteady : ∀ t ∈ schedule, t.Steady (cfg.windows interval) := fun t ht =>
        ⟨hconsumer hconnected t ht, harms rfl t ht⟩
      have hpartition := runLoop_windowsPartition (cfg.windows interval)
        (forwardWindowEventsIteration_outcome _) (fun t s => by rw [flushWindowEvent_eq])
        (fun _ => rfl) hsteady hrun
      refine ⟨w.sent, ?_, hpartition.partition⟩
      rw [haccepted, List.map_map]
      rfl

theorem StreamInv.holdsTx_eq_false (hi : StreamInv cfg samples s)
    (hclosed : .error .closed ∈ s.replies) : s.worker.holdsTx cfg.mode = false := by
  by_contra htx
  have hsenders := hi.eventSenders
  rw [(hi.closed hclosed).1, if_pos (Bool.eq_true_of_not_eq_false htx)] at hsenders
  cases hsenders

theorem StreamEffect.replies_eq (h : StreamEffect cfg s s') : s'.replies = s.replies := by
  cases h <;> rfl

theorem StreamEffect.of_closed (hi : StreamInv cfg samples s)
    (hclosed : .error .closed ∈ s.replies) (h : StreamEffect cfg s s') :
    s'.accepted = s.accepted ∧ s'.worker.result = s.worker.result := by
  have htx := hi.holdsTx_eq_false hclosed
  cases h with
  | sent emitted pc window deadline hfrom =>
    rw [(StreamPc.holdsTx_of_owns cfg.mode hfrom).1] at htx
    cases htx
  | received now metrics rest hfrom =>
    rw [hfrom] at htx
    cases htx
  | dropFirst result hpc =>
    rw [hpc] at htx
    cases htx
  | dropSecond result hpc => exact ⟨rfl, by rw [hpc]; rfl⟩

theorem StreamRun.Reachable.closed {v : Instant} (hvalid : cfg.mode.validate cfg.limit v = .ok ())
    (h : StreamRun.Reachable cfg samples s) (hclosed : .error .closed ∈ s.replies)
    (hresult : s.worker.result = some (.ok ())) :
    cfg.mode.Complete samples (s.accepted.map Emitted.event) := by
  induction h with
  | refl => cases hclosed
  | @tail s s' hbefore hstep ih =>
    have hi := StreamRun.Reachable.inv hbefore
    have hold : ∀ answer : Except MetricsRecvError (MetricEvent F),
        .error .closed ∈ s.replies ++ [answer] → answer ≠ .error .closed →
          .error .closed ∈ s.replies := fun answer hmem hne =>
      (List.mem_append.mp hmem).resolve_right fun hlast => hne (List.mem_singleton.mp hlast).symm
    cases hstep with
    | callback h => cases h <;> exact ih hclosed hresult
    | worker h =>
      have heffect := h.effect hi.capacity
      rw [heffect.replies_eq] at hclosed
      obtain ⟨haccepted, hsame⟩ := heffect.of_closed hi hclosed
      rw [haccepted]
      exact ih hclosed (hsame.symm.trans hresult)
    | consumer h =>
      cases h with
      | closed call now hr hask hb hs =>
        have hconnected : s.connected = true := by simpa [StreamRun.connected] using hr
        exact StreamRun.Reachable.complete (s := s) hvalid hbefore hresult hconnected
      | event call now event rest hr hask hb => exact ih (hold _ hclosed (by rintro ⟨⟩)) hresult
      | empty => exact ih (hold _ hclosed (by rintro ⟨⟩)) hresult
      | timeout => exact ih (hold _ hclosed (by rintro ⟨⟩)) hresult
      | invalidTimeout => exact ih (hold _ hclosed (by rintro ⟨⟩)) hresult
      | drop hr => exact ih hclosed hresult

/-- The one error of a worker is a window whose deadline cannot be represented. -/
theorem StreamRun.Reachable.failed {v : Instant} (hvalid : cfg.mode.validate cfg.limit v = .ok ())
    (h : StreamRun.Reachable cfg samples s) {e : Error}
    (hresult : s.worker.result = some (.error e)) :
    ∃ interval now, cfg.mode = .window interval ∧
      checkedDeadline cfg.limit now interval = .error e := by
  cases hmode : cfg.mode with
  | disabled =>
    rcases (h.disabled hmode).worker with hhead | hok
    · rw [hhead] at hresult
      cases hresult
    · rw [hok] at hresult
      cases hresult
  | interval => exact absurd ((h.forwards hmode).returned _ hresult).1 nofun
  | window interval =>
    cases h.follows hmode hvalid with
    | looping schedule w hand hpc =>
      rw [(StreamPc.of_hand hpc).1] at hresult
      cases hresult
    | leaving schedule t w w' hpc =>
      rw [hpc] at hresult
      cases hresult
    | returned schedule result w hpc hconsumer harms hrun haccepted =>
      obtain rfl := Option.some.inj (hpc.symm.trans hresult)
      obtain ⟨t, ht, w', -, hstop | ⟨e', hfail, he⟩⟩ :=
        runLoop_returned (I := fun _ => True) trivial (fun _ _ _ _ _ _ => trivial) hrun
      · obtain ⟨_, -, hok, -⟩ := hstop
        cases hok
      · obtain rfl := Except.error.inj he
        have houtcome := forwardWindowEventsIteration_outcome (cfg.windows interval) t w'
        rw [hfail] at houtcome
        cases houtcome with
        | unrepresentable _ _ harm => exact ⟨interval, t.rearm, rfl, harm⟩
        | writeFailed _ metrics rx written _ hrx hw => cases hw

/-- In every interleaving, the application receives what the worker has sent, in order, and a
worker that ends well has sent everything: what has been received and what is still queued are
the events of the whole run. A stream is closed behind all that has been sent, also by a worker that
has failed, and for good. A worker fails only for a deadline that cannot be represented. -/
theorem stream_complete {v : Instant} (hvalid : cfg.mode.validate cfg.limit v = .ok ())
    (h : StreamRun.Reachable cfg samples s) :
    (s.worker.result = some (.ok ()) → s.connected = true →
      cfg.mode.Complete samples (s.received ++ s.events.buf)) ∧
    (.error .closed ∈ s.replies → s.events.buf = [] ∧
      s.received = s.accepted.map Emitted.event ∧ ∃ result, s.worker.result = some result ∧
        (result = .ok () → cfg.mode.Complete samples s.received)) ∧
    (s.replies.Pairwise fun before after =>
      before = .error .closed → after = .error .closed ∨ after = .error .invalidTimeout) ∧
    ∀ e, s.worker.result = some (.error e) → ∃ interval now, cfg.mode = .window interval ∧
      checkedDeadline cfg.limit now interval = .error e := by
  have hi := h.inv
  refine ⟨fun hresult hconnected => ?_, fun hclosed => ?_, hi.final, fun e => h.failed hvalid⟩
  · rw [hi.delivered]
    exact h.complete hvalid hresult hconnected
  · have hdelivered := hi.delivered
    rw [(hi.closed hclosed).2, List.append_nil] at hdelivered
    have htx := hi.holdsTx_eq_false hclosed
    have hended : ∃ result, s.worker.result = some result := by
      cases hpc : s.worker <;> rw [hpc] at htx <;> first | exact ⟨_, rfl⟩ | cases htx
    obtain ⟨result, hresult⟩ := hended
    refine ⟨(hi.closed hclosed).2, hdelivered, result, hresult, ?_⟩
    rintro rfl
    rw [hdelivered]
    exact h.closed hvalid hclosed hresult

theorem stream_complete_second : ∃ s : StreamRun ExactF64,
    s.received.length = 3 ∧ secondStream.mode.Complete threeSamples s.received := by
  obtain ⟨s, hreachable, hresult, -, hreceived, hclosed⟩ := secondStream_reachable
  obtain ⟨-, -, result, hresult', hcomplete⟩ :=
    (stream_complete (v := 0) (by decide) hreachable).2.1 hclosed
  exact ⟨s, hreceived, hcomplete (Option.some.inj (hresult'.symm.trans hresult))⟩

def StreamPc.weight : StreamPc F → ℕ
  | .processing _ _ => 8
  | .head => 5
  | .waiting _ => 4
  | .finalFlush => 3
  | .dropping _ => 2
  | .closing _ => 1
  | .done _ => 0

def StreamRun.size (s : StreamRun F) : ℕ :=
  6 * s.todo.length + 5 * s.raw.chan.buf.length + s.registered.toNat + s.worker.weight +
    2 * s.deadline.toList.length

def StreamRunStep (cfg : StreamConfig) (s s' : StreamRun F) : Prop :=
  StreamCallbackStep s s' ∨ StreamWorkerStep cfg s s'

theorem StreamCallbackStep.size_lt (hi : StreamInv cfg samples s)
    (h : StreamCallbackStep s s') : s'.size < s.size := by
  cases h with
  | emit metrics rest hreg hst htodo =>
    have hbuf : (s.raw.offer metrics).chan.buf.length ≤ s.raw.chan.buf.length + 1 := by
      show (enqueueStart s.raw.chan metrics).2.buf.length ≤ _
      rw [enqueueStart_chan, Chan.trySend]
      split_ifs <;> simp
    have hlength : s.todo.length = rest.length + 1 := by rw [htodo]; rfl
    simp only [StreamRun.size, hlength]
    omega
  | enqueue stage hst => cases hi.lossless.stage.symm.trans hst
  | unregister hreg hst htodo =>
    simp [StreamRun.size, hreg, Link.dropSender, Chan.dropSender]

/-- A worker step that keeps the channels as they are gets ahead in its function. -/
theorem StreamRun.size_lt_of_weight (htodo : s'.todo = s.todo)
    (hbuf : s'.raw.chan.buf = s.raw.chan.buf) (hregistered : s'.registered = s.registered)
    (hweight : s'.worker.weight + 2 * s'.deadline.toList.length <
      s.worker.weight + 2 * s.deadline.toList.length) : s'.size < s.size := by
  simp only [StreamRun.size, htodo, hbuf, hregistered]
  omega

theorem StreamRun.size_flushThen (hcap : s.events.capacity = none)
    {next : StreamRun F → StreamRun F} (hpc : 4 ≤ s.worker.weight)
    (hnext : (next { s.push s.outgoing with window := [] }).size < s.size) :
    (s.flushThen next).size < s.size := by
  rcases StreamRun.flushThen_cases hcap next with ⟨he, -⟩ | ⟨he, -⟩ <;> rw [he]
  · exact hnext
  · refine StreamRun.size_lt_of_weight rfl rfl rfl ?_
    show 3 + 2 * s.deadline.toList.length < _
    omega

theorem StreamRun.size_closeWindow {flushAt : Instant} (hcap : s.events.capacity = none)
    (hd : s.deadline = some flushAt) (hpc : 4 ≤ s.worker.weight) :
    s.closeWindow.size < s.size := by
  refine StreamRun.size_flushThen hcap hpc (StreamRun.size_lt_of_weight rfl rfl rfl ?_)
  show 5 + 2 * 0 < s.worker.weight + 2 * s.deadline.toList.length
  rw [hd]
  show 5 + 2 * 0 < s.worker.weight + 2 * 1
  omega

theorem StreamRun.size_arm (window cleared : List (Metrics F)) (emitted : List (Emitted F))
    (deadline : Except Error Instant) (hpc : s.worker.weight = 8) :
    (StreamRun.arm { s.push emitted with window := cleared } deadline window).size < s.size := by
  cases deadline with
  | error e =>
    refine StreamRun.size_lt_of_weight rfl rfl rfl ?_
    show 2 + 2 * s.deadline.toList.length < _
    omega
  | ok deadline =>
    refine StreamRun.size_lt_of_weight rfl rfl rfl ?_
    show 5 + 2 * 1 < _
    omega

theorem StreamWorkerStep.size_lt (hcap : s.events.capacity = none)
    (h : StreamWorkerStep cfg s s') : s'.size < s.size := by
  have hweight : ∀ pc, s.worker = pc → s.worker.weight = pc.weight := fun pc hpc => by rw [hpc]
  have hlive : ∀ pc, s.worker = pc → 4 ≤ pc.weight → 4 ≤ s.worker.weight := fun pc hpc h =>
    (hweight pc hpc).symm ▸ h
  cases h with
  | skip hpc hmode =>
    refine StreamRun.size_lt_of_weight rfl rfl rfl ?_
    rw [hpc]
    exact Nat.add_lt_add_right (by decide : 2 < 5) _
  | overdue now flushAt hpc hd hnow =>
    exact StreamRun.size_closeWindow hcap hd (hlive _ hpc (by decide : 4 ≤ 5))
  | wait now hpc hmode hnow =>
    refine StreamRun.size_lt_of_weight rfl rfl rfl ?_
    rw [hpc]
    exact Nat.add_lt_add_right (by decide : 4 < 5) _
  | receive now metrics rest hpc hb =>
    have hlength : s.raw.chan.buf.length = rest.length + 1 := by rw [hb]; rfl
    have hwait : s.worker.weight = 4 := hweight _ hpc
    show 6 * s.todo.length + 5 * rest.length + s.registered.toNat + 8 +
      2 * s.deadline.toList.length < s.size
    simp only [StreamRun.size, hlength, hwait]
    omega
  | timeout now flushAt hpc hd =>
    exact StreamRun.size_closeWindow hcap hd (hlive _ hpc (by decide : 4 ≤ 4))
  | disconnect now hpc hb hs =>
    refine StreamRun.size_lt_of_weight rfl rfl rfl ?_
    rw [hpc]
    refine Nat.add_lt_add_right ?_ _
    cases cfg.mode with
    | disabled | interval => exact (by decide : 2 < 4)
    | window interval => exact (by decide : 3 < 4)
  | forward now metrics hpc hmode =>
    rw [StreamRun.send_eq hcap]
    cases s.connected with
    | true =>
      refine StreamRun.size_lt_of_weight rfl rfl rfl ?_
      rw [hpc]
      exact Nat.add_lt_add_right (by decide : 5 < 8) _
    | false =>
      refine StreamRun.size_lt_of_weight rfl rfl rfl ?_
      rw [hpc]
      exact Nat.add_lt_add_right (by decide : 2 < 8) _
  | first now rearm metrics interval hpc hmode hd =>
    have harm := StreamRun.size_arm (s.window ++ [metrics]) s.window []
      (checkedDeadline cfg.limit rearm interval) (hweight _ hpc)
    rwa [StreamRun.push_nil] at harm
  | join now flushAt metrics interval hpc hmode hd hc =>
    refine StreamRun.size_lt_of_weight rfl rfl rfl ?_
    rw [hpc]
    exact Nat.add_lt_add_right (by decide : 5 < 8) _
  | split now flushAt rearm metrics interval hpc hmode hd hc =>
    refine StreamRun.size_flushThen hcap (hlive _ hpc (by decide : 4 ≤ 8)) ?_
    exact StreamRun.size_arm _ _ _ _ (hweight _ hpc)
  | finalFlush hpc =>
    rw [StreamRun.flush_eq hcap]
    refine StreamRun.size_lt_of_weight rfl rfl rfl ?_
    rw [hpc]
    exact Nat.add_lt_add_right (by decide : 2 < 3) _
  | dropFirst result hpc =>
    refine StreamRun.size_lt_of_weight rfl ?_ rfl ?_
    · dsimp only
      split <;> rfl
    · rw [hpc]
      exact Nat.add_lt_add_right (by decide : 1 < 2) _
  | dropSecond result hpc =>
    refine StreamRun.size_lt_of_weight rfl ?_ rfl ?_
    · dsimp only
      split <;> rfl
    · rw [hpc]
      exact Nat.add_lt_add_right (by decide : 0 < 1) _

/-- Where each party of the run can go on. -/
theorem StreamRun.Reachable.enabled (h : StreamRun.Reachable cfg samples s)
    (hnotdone : ∀ result, s.worker ≠ .done result) : ∃ s', StreamRunStep cfg s s' := by
  have hi := h.inv
  by_cases hreg : s.registered = true
  · cases htodo : s.todo with
    | nil => exact ⟨_, .inl (.unregister hreg hi.lossless.stage htodo)⟩
    | cons metrics rest => exact ⟨_, .inl (.emit metrics rest hreg hi.lossless.stage htodo)⟩
  have hsenders : s.raw.chan.senders = 0 := by
    rw [hi.rawSenders, if_neg hreg]
  cases hpc : s.worker with
  | head =>
    by_cases hmode : cfg.mode = .disabled
    · exact ⟨_, .inr (.skip hpc hmode)⟩
    · cases hd : s.deadline with
      | none => exact ⟨_, .inr (.wait 0 hpc hmode (by rw [hd]; nofun))⟩
      | some flushAt => exact ⟨_, .inr (.overdue flushAt flushAt hpc hd (Nat.le_refl _))⟩
  | waiting now =>
    cases hb : s.raw.chan.buf with
    | nil => exact ⟨_, .inr (.disconnect now hpc hb hsenders)⟩
    | cons metrics rest => exact ⟨_, .inr (.receive now metrics rest hpc hb)⟩
  | processing now metrics =>
    cases hmode : cfg.mode with
    | disabled =>
      have hworker := (h.disabled hmode).worker
      rw [hpc] at hworker
      exact hworker.elim nofun nofun
    | interval => exact ⟨_, .inr (.forward now metrics hpc hmode)⟩
    | window interval =>
      cases hd : s.deadline with
      | none => exact ⟨_, .inr (.first now 0 metrics interval hpc hmode hd)⟩
      | some flushAt =>
        cases hc : windowContextChanges s.window metrics with
        | false => exact ⟨_, .inr (.join now flushAt metrics interval hpc hmode hd hc)⟩
        | true => exact ⟨_, .inr (.split now flushAt 0 metrics interval hpc hmode hd hc)⟩
  | finalFlush => exact ⟨_, .inr (.finalFlush hpc)⟩
  | dropping result => exact ⟨_, .inr (.dropFirst result hpc)⟩
  | closing result => exact ⟨_, .inr (.dropSecond result hpc)⟩
  | done result => exact absurd hpc (hnotdone result)

/-- The steps of a run, with those of its own threads counted. -/
inductive StreamRun.Runs (cfg : StreamConfig) (samples : List (Metrics F)) :
    ℕ → StreamRun F → Prop
  | start : Runs cfg samples 0 (.start samples)
  | run {n : ℕ} {s s' : StreamRun F} (h : Runs cfg samples n s) (hstep : StreamRunStep cfg s s') :
      Runs cfg samples (n + 1) s'
  | consumer {n : ℕ} {s s' : StreamRun F} (h : Runs cfg samples n s)
      (hstep : StreamConsumerStep cfg s s') : Runs cfg samples n s'

theorem StreamRun.Runs.reachable {n : ℕ} (h : StreamRun.Runs cfg samples n s) :
    StreamRun.Reachable cfg samples s := by
  induction h with
  | start => exact .refl
  | run h hstep ih => exact ih.tail (hstep.elim .callback .worker)
  | consumer h hstep ih => exact ih.tail (.consumer hstep)

theorem StreamConsumerStep.size_eq (h : StreamConsumerStep cfg s s') : s'.size = s.size := by
  cases h <;> rfl

theorem StreamRun.Runs.size {n : ℕ} (h : StreamRun.Runs cfg samples n s) :
    n + s.size ≤ 6 * samples.length + 6 := by
  induction h with
  | start => simp [StreamRun.size, StreamRun.start, Link.new, metricsChannel, StreamPc.weight]
  | run h hstep ih =>
    have hi := h.reachable.inv
    have hlt := hstep.elim (fun h => h.size_lt hi) fun h => h.size_lt hi.capacity
    omega
  | consumer h hstep ih => rwa [hstep.size_eq]

/-- Whatever the application does, or does not do: the callback returns from each of its calls in
one step, the run's own threads have a step to take until the worker is at its end, and they take
no more than six steps for each sample and six more. -/
theorem stream_progress {n : ℕ} (h : StreamRun.Runs cfg samples n s) :
    n ≤ 6 * samples.length + 6 ∧
      ((∀ result, s.worker ≠ .done result) → ∃ s', StreamRunStep cfg s s') ∧
      (s.registered = true → ∀ metrics rest, s.todo = metrics :: rest →
        ∃ s', StreamCallbackStep s s' ∧ s'.todo = rest ∧ s'.raw.stage = none) := by
  have hi := h.reachable.inv
  have hsize := h.size
  refine ⟨by omega, h.reachable.enabled, fun hreg metrics rest htodo => ?_⟩
  exact ⟨_, .emit metrics rest hreg hi.lossless.stage htodo, rfl,
    (hi.lossless.offer metrics).stage⟩

/-- Behind the split of the first window, with a sample still to be reported. -/
theorem stream_progress_second : ∃ s : StreamRun ExactF64,
    StreamRun.Runs secondStream threeSamples 8 s ∧ s.accepted.length = 1 ∧
      8 ≤ 6 * threeSamples.length + 6 ∧ ∃ s', StreamRunStep secondStream s s' := by
  have h : StreamRun.Runs secondStream threeSamples 0 _ := .start
  have h := h.run (.inl (.emit senderSample [receiverSample, receiverSample] rfl rfl rfl))
  have h := h.run (.inr (.wait 0 rfl nofun nofun))
  have h := h.run (.inl (.emit receiverSample [receiverSample] rfl rfl rfl))
  have h := h.run (.inr (.receive 0 senderSample [receiverSample] rfl rfl))
  have h := h.run (.inr (.first 0 5 senderSample .second rfl rfl rfl))
  have h := h.run (.inr (.wait 7 rfl nofun (by decide)))
  have h := h.run (.inr (.receive 7 receiverSample [] rfl rfl))
  have h := h.run (.inr (.split 7 1000000005 9 receiverSample .second rfl rfl rfl rfl))
  obtain ⟨hsteps, henabled, -⟩ := stream_progress h
  exact ⟨_, h, rfl, hsteps, henabled nofun⟩

end Iperf3Rs
