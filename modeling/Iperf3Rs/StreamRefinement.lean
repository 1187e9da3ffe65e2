import Iperf3Rs.StreamChannels

/-! Whatever the interleaving, the worker of a windowed stream does what `forward_window_events`
does on the list of samples, for some schedule of its clock readings and of the application's
presence. -/

namespace Iperf3Rs

variable {F : Type} [F64 F]

def StreamConfig.windows (cfg : StreamConfig) (interval : Duration) : WindowConfig :=
  ⟨cfg.limit, interval, false, fun _ => .ok ()⟩

omit [F64 F] in
/-- What the worker has received and not yet put into its window, while it goes round the loop. -/
def StreamPc.hand : StreamPc F → Option (List (Metrics F))
  | .head | .waiting _ => some []
  | .processing _ metrics => some [metrics]
  | _ => none

omit [F64 F] in
theorem StreamPc.of_hand {pc : StreamPc F} {hand : List (Metrics F)} (h : pc.hand = some hand) :
    pc.result = none ∧ pc.owns = true := by
  cases pc <;> first | exact ⟨rfl, rfl⟩ | cases h

omit [F64 F] in
def StreamPc.clock : StreamPc F → Option Instant
  | .waiting now | .processing now _ => some now
  | _ => none

/-- The locals of the loop are those of the worker, and what is on its way is still to arrive. -/
structure Mirrors (s : StreamRun F) (hand : List (Metrics F)) (w : WindowState F) : Prop where
  window : w.window = s.window
  deadline : w.deadline = s.deadline
  rx : w.rx = hand ++ s.raw.chan.buf ++ s.todo
  accepted : s.accepted = w.sent.map .window

def Wakeup.Arms (cfg : StreamConfig) (interval : Duration) (t : Wakeup) : Prop :=
  (checkedDeadline cfg.limit t.rearm interval).isOk = true

/-- The worker goes round the loop, and the loop over `schedule` is where the worker is. -/
structure StreamLoop (cfg : StreamConfig) (interval : Duration) (samples : List (Metrics F))
    (s : StreamRun F) (hand : List (Metrics F)) (schedule : List Wakeup) (w : WindowState F) :
    Prop where
  now : ∀ now flushAt, s.worker.clock = some now → s.deadline = some flushAt → now < flushAt
  consumer : s.connected = true → ∀ t ∈ schedule, t.consumer = true
  arms : ∀ t ∈ schedule, t.Arms cfg interval
  run : forwardWindowEvents (cfg.windows interval) schedule (.start samples) = .running w
  mirrors : Mirrors s hand w

/-- A schedule that ends where the worker is. Behind the loop the application may still leave
before the last window is sent. -/
inductive StreamFollows (cfg : StreamConfig) (interval : Duration) (samples : List (Metrics F))
    (s : StreamRun F) : Prop
  | looping (schedule : List Wakeup) (w : WindowState F) (hand : List (Metrics F))
      (hpc : s.worker.hand = some hand)
      (hloop : StreamLoop cfg interval samples s hand schedule w)
  | leaving (schedule : List Wakeup) (t : Wakeup) (w w' : WindowState F)
      (hpc : s.worker = .finalFlush)
      (hconsumer : s.connected = true → ∀ t ∈ schedule, t.consumer = true)
      (harms : ∀ t ∈ schedule, t.Arms cfg interval)
      (hrun : forwardWindowEvents (cfg.windows interval) schedule (.start samples) = .running w)
      (harm : t.Arms cfg interval)
      (hstop : ∀ consumer, (consumer = true → s.connected = true) →
        forwardWindowEventsIteration (cfg.windows interval) { t with consumer := consumer } w =
          .stop w')
      (hmirrors : Mirrors s [] w') (hsent : w'.sent = w.sent)
  | returned (schedule : List Wakeup) (result : Except Error Unit) (w : WindowState F)
      (hpc : s.worker.result = some result)
      (hconsumer : s.connected = true → ∀ t ∈ schedule, t.consumer = true)
      (harms : result = .ok () → ∀ t ∈ schedule, t.Arms cfg interval)
      (hrun : forwardWindowEvents (cfg.windows interval) schedule (.start samples) =
        .returned result w)
      (haccepted : s.accepted = w.sent.map .window)

section Iterations

/-- An iteration that reads the clock for the next deadline: what it leaves if that fails, and
if it does not. -/
def armed (cfg : WindowConfig) (t : Wakeup) (failed opened : WindowState F) :
    Flow Error (WindowState F) :=
  match checkedDeadline cfg.limit t.rearm cfg.interval with
  | .error e => .fail e failed
  | .ok deadline => .next { opened with deadline := some deadline }

variable (cfg : WindowConfig) (t : Wakeup) {w : WindowState F}

/-- An iteration that closes the window, because its time is over. -/
theorem iteration_close {flushAt : Instant} (hd : w.deadline = some flushAt)
    (hover : flushAt ≤ t.now ∨ t.timedOut = true) :
    forwardWindowEventsIteration cfg t w =
      if t.consumer || w.window.isEmpty then .next { w.flush t.consumer with deadline := none }
      else .stop (w.flush t.consumer) := by
  rw [forwardWindowEventsIteration, hd]
  simp only [flushWindowEvent_eq]
  by_cases hnow : flushAt ≤ t.now
  · rw [if_pos hnow]
    cases t.consumer || w.window.isEmpty <;> rfl
  · rw [if_neg hnow, hover.resolve_left hnow]
    simp only [recvTimeout, if_true]
    cases t.consumer || w.window.isEmpty <;> rfl

theorem iteration_disconnected (hrx : w.rx = []) (htimeout : t.timedOut = false)
    (hnow : ∀ flushAt, w.deadline = some flushAt → t.now < flushAt) :
    forwardWindowEventsIteration cfg t w = .stop w := by
  rw [forwardWindowEventsIteration]
  cases hd : w.deadline with
  | none => simp [hrx]
  | some flushAt =>
    have hlt := Nat.not_le_of_lt (hnow flushAt hd)
    simp [hlt, htimeout, hrx, recvTimeout]

theorem iteration_first {metrics : Metrics F} {rx : List (Metrics F)} (hd : w.deadline = none)
    (hrx : w.rx = metrics :: rx) :
    forwardWindowEventsIteration cfg t w =
      armed cfg t { w with rx := rx, window := w.window ++ [metrics] }
        { w with rx := rx, window := w.window ++ [metrics] } := by
  cases harm : checkedDeadline cfg.limit t.rearm cfg.interval <;>
    simp [forwardWindowEventsIteration, armed, hd, hrx, harm]

theorem iteration_join {metrics : Metrics F} {rx : List (Metrics F)} {flushAt : Instant}
    (hd : w.deadline = some flushAt) (hnow : t.now < flushAt) (htimeout : t.timedOut = false)
    (hrx : w.rx = metrics :: rx) (hc : windowContextChanges w.window metrics = false) :
    forwardWindowEventsIteration cfg t w =
      .next { w with rx := rx, window := w.window ++ [metrics] } := by
  have hlt := Nat.not_le_of_lt hnow
  rw [forwardWindowEventsIteration, hd]
  simp [hlt, htimeout, hrx, recvTimeout, hc]

theorem iteration_split {metrics : Metrics F} {rx : List (Metrics F)} {flushAt : Instant}
    (hd : w.deadline = some flushAt) (hnow : t.now < flushAt) (htimeout : t.timedOut = false)
    (hrx : w.rx = metrics :: rx) (hc : windowContextChanges w.window metrics = true) :
    forwardWindowEventsIteration cfg t w =
      if t.consumer || w.window.isEmpty then
        armed cfg t { w.flush t.consumer with rx := rx }
          { w.flush t.consumer with rx := rx, window := [metrics] }
      else .stop { w.flush t.consumer with rx := rx } := by
  have hlt := Nat.not_le_of_lt hnow
  obtain ⟨arriving, window, deadline, sent, written⟩ := w
  obtain rfl : deadline = some flushAt := hd
  obtain rfl : arriving = metrics :: rx := hrx
  rw [forwardWindowEventsIteration]
  simp only [hlt, htimeout, recvTimeout, hc, if_true, if_false, flushWindowEvent_eq,
    Bool.false_eq_true]
  rw [armed]
  cases t.consumer || window.isEmpty
  · rfl
  · cases checkedDeadline cfg.limit t.rearm cfg.interval <;> rfl

end Iterations

section Runs

variable {cfg : WindowConfig} {samples : List (Metrics F)} {schedule : List Wakeup} {t : Wakeup}
  {w w' : WindowState F}

theorem run_next (hrun : forwardWindowEvents cfg schedule (.start samples) = .running w)
    (h : forwardWindowEventsIteration cfg t w = .next w') :
    forwardWindowEvents cfg (schedule ++ [t]) (.start samples) = .running w' := by
  rw [forwardWindowEvents, runLoop_append hrun]
  simp only [runLoop, h]

theorem run_stop (hrun : forwardWindowEvents cfg schedule (.start samples) = .running w)
    (h : forwardWindowEventsIteration cfg t w = .stop w') :
    forwardWindowEvents cfg (schedule ++ [t]) (.start samples) =
      .returned (.ok ()) (w'.flush t.consumer) := by
  rw [forwardWindowEvents, runLoop_append hrun]
  simp only [runLoop, h, flushWindowEvent_eq]

theorem run_fail {e : Error}
    (hrun : forwardWindowEvents cfg schedule (.start samples) = .running w)
    (h : forwardWindowEventsIteration cfg t w = .fail e w') :
    forwardWindowEvents cfg (schedule ++ [t]) (.start samples) = .returned (.error e) w' := by
  rw [forwardWindowEvents, runLoop_append hrun]
  simp only [runLoop, h]

end Runs

variable {cfg : StreamConfig} {interval : Duration} {samples : List (Metrics F)}
  {s s' : StreamRun F} {hand : List (Metrics F)} {w : WindowState F}

theorem Mirrors.flush (h : Mirrors s hand w) :
    Mirrors { s.push s.outgoing with window := [] } hand (w.flush s.connected) where
  window := rfl
  deadline := h.deadline
  rx := h.rx
  accepted := by
    show s.accepted ++ s.outgoing =
      (w.sent ++ if s.connected then (flushedWindow w.window).toList else []).map .window
    rw [List.map_append, ← h.accepted, h.window, StreamRun.outgoing]
    cases s.connected <;> rfl

/-- A step of another party leaves the worker where it is. -/
theorem StreamFollows.keep (h : StreamFollows cfg interval samples s)
    (hworker : s'.worker = s.worker) (hwindow : s'.window = s.window)
    (hdeadline : s'.deadline = s.deadline) (haccepted : s'.accepted = s.accepted)
    (hconnected : s'.connected = true → s.connected = true)
    (hrx : s.worker.owns = true → s'.raw.chan.buf ++ s'.todo = s.raw.chan.buf ++ s.todo) :
    StreamFollows cfg interval samples s' := by
  have hmirrors : ∀ hand w, s.worker.owns = true → Mirrors s hand w → Mirrors s' hand w := by
    intro hand w hown hm
    refine ⟨hm.window.trans hwindow.symm, hm.deadline.trans hdeadline.symm, ?_,
      haccepted.trans hm.accepted⟩
    rw [hm.rx, List.append_assoc, List.append_assoc, hrx hown]
  cases h with
  | looping schedule w hand hpc hl =>
    exact .looping schedule w hand (hworker ▸ hpc)
      ⟨hworker ▸ hdeadline ▸ hl.now, fun hc => hl.consumer (hconnected hc), hl.arms, hl.run,
        hmirrors _ _ (StreamPc.of_hand hpc).2 hl.mirrors⟩
  | leaving schedule t w w' hpc hconsumer harms hrun harm hstop hm hsent =>
    have hown : s.worker.owns = true := by
      rw [hpc]
      rfl
    exact .leaving schedule t w w' (hworker.trans hpc) (fun hc => hconsumer (hconnected hc)) harms
      hrun harm (fun c hc => hstop c fun h => hconnected (hc h)) (hmirrors _ _ hown hm) hsent
  | returned schedule result w hpc hconsumer harms hrun haccepted' =>
    exact .returned schedule result w (hworker ▸ hpc) (fun hc => hconsumer (hconnected hc)) harms
      hrun (haccepted.trans haccepted')

theorem StreamFollows.start (cfg : StreamConfig) (interval : Duration)
    (samples : List (Metrics F)) : StreamFollows cfg interval samples (.start samples) :=
  .looping [] (.start samples) [] rfl
    ⟨nofun, fun _ => nofun, nofun, rfl, ⟨rfl, rfl, rfl, rfl⟩⟩

theorem StreamFollows.callback (hi : StreamInv cfg samples s)
    (hf : StreamFollows cfg interval samples s) (h : StreamCallbackStep s s') :
    StreamFollows cfg interval samples s' := by
  cases h with
  | emit metrics rest hreg hst htodo =>
    refine hf.keep rfl rfl rfl rfl id fun hown => ?_
    have hreceivers := hi.rawReceivers
    rw [(StreamPc.holdsTx_of_owns cfg.mode hown).2] at hreceivers
    have hsend := Chan.trySend_unbounded hi.lossless.capacity (by rw [hreceivers]; decide) metrics
    show (enqueueStart s.raw.chan metrics).2.buf ++ rest = s.raw.chan.buf ++ s.todo
    rw [enqueueStart_chan, hsend, htodo]
    simp
  | enqueue stage hst => exact absurd (hi.lossless.stage.symm.trans hst) nofun
  | unregister hreg hst htodo => exact hf.keep rfl rfl rfl rfl id fun _ => rfl

theorem StreamFollows.consumer (hf : StreamFollows cfg interval samples s)
    (h : StreamConsumerStep cfg s s') : StreamFollows cfg interval samples s' := by
  cases h with
  | drop hr =>
    refine hf.keep rfl rfl rfl rfl (fun hc => ?_) fun _ => rfl
    simp only [StreamRun.connected, bne_iff_ne]
    exact hr
  | _ => exact hf.keep rfl rfl rfl rfl id fun _ => rfl

theorem StreamFollows.loop (hand : List (Metrics F)) (hf : StreamFollows cfg interval samples s)
    (hhand : s.worker.hand = some hand) :
    ∃ schedule w, StreamLoop cfg interval samples s hand schedule w := by
  cases hf with
  | looping schedule w hand' hpc hl =>
    obtain rfl := Option.some.inj (hpc.symm.trans hhand)
    exact ⟨schedule, w, hl⟩
  | leaving schedule t w w' hpc =>
    rw [hpc] at hhand
    cases hhand
  | returned schedule result w hpc =>
    rw [(StreamPc.of_hand hhand).1] at hpc
    cases hpc

/-- Behind its function the worker drops what it owns. -/
theorem StreamFollows.retire {result : Except Error Unit}
    (hf : StreamFollows cfg interval samples s) (hresult : s.worker.result = some result)
    (hresult' : s'.worker.result = some result) (haccepted : s'.accepted = s.accepted)
    (hconnected : s'.connected = s.connected) : StreamFollows cfg interval samples s' := by
  cases hf with
  | looping schedule w hand hpc hl =>
    rw [(StreamPc.of_hand hpc).1] at hresult
    cases hresult
  | leaving schedule t w w' hpc =>
    rw [hpc] at hresult
    cases hresult
  | returned schedule result' w hpc hconsumer harms hrun haccepted' =>
    obtain rfl := Option.some.inj (hpc.symm.trans hresult)
    exact .returned schedule result' w hresult' (hconnected ▸ hconsumer) harms hrun
      (haccepted.trans haccepted')

variable {schedule : List Wakeup} {t : Wakeup}

theorem StreamLoop.consumer_concat (hl : StreamLoop cfg interval samples s hand schedule w)
    (ht : s.connected = true → t.consumer = true) (hc : s.connected = true) :
    ∀ t' ∈ schedule ++ [t], t'.consumer = true := by
  intro t' hmem
  rcases List.mem_append.mp hmem with hmem | hmem
  · exact hl.consumer hc t' hmem
  · rw [List.mem_singleton.mp hmem]
    exact ht hc

theorem StreamLoop.arms_concat (hl : StreamLoop cfg interval samples s hand schedule w)
    (ht : t.Arms cfg interval) : ∀ t' ∈ schedule ++ [t], t'.Arms cfg interval := by
  intro t' hmem
  rcases List.mem_append.mp hmem with hmem | hmem
  · exact hl.arms t' hmem
  · rw [List.mem_singleton.mp hmem]
    exact ht

/-- The worker has come back to the head of the loop. -/
theorem StreamLoop.next (hl : StreamLoop cfg interval samples s hand schedule w)
    {w' : WindowState F} (ht : s.connected = true → t.consumer = true)
    (harm : t.Arms cfg interval)
    (hbody : forwardWindowEventsIteration (cfg.windows interval) t w = .next w')
    (hconnected : s'.connected = s.connected) (hpc : s'.worker = .head)
    (hm : Mirrors s' [] w') : StreamFollows cfg interval samples s' := by
  refine .looping (schedule ++ [t]) w' [] (by rw [hpc]; rfl)
    ⟨?_, ?_, hl.arms_concat harm, run_next hl.run hbody, hm⟩
  · intro now flushAt hclock
    rw [hpc] at hclock
    cases hclock
  · rw [hconnected]
    exact hl.consumer_concat ht

/-- The application has left, and the window that was closed is lost. -/
theorem StreamLoop.gone (hl : StreamLoop cfg interval samples s hand schedule w)
    {w' : WindowState F} (harm : t.Arms cfg interval)
    (hbody : forwardWindowEventsIteration (cfg.windows interval) t w = .stop w')
    (ht : t.consumer = false) (hgone : s'.connected = false) (hpc : s'.worker = .finalFlush)
    (hm : Mirrors s' [] w') (hsent : w'.sent = w.sent) :
    StreamFollows cfg interval samples s' := by
  refine .leaving schedule t w w' hpc (fun hc => absurd (hgone.symm.trans hc) nofun) hl.arms hl.run
    harm ?_ hm hsent
  intro consumer hconsumer
  cases consumer with
  | true => exact absurd (hgone.symm.trans (hconsumer rfl)) nofun
  | false =>
    rw [← ht]
    exact hbody

/-- A deadline that cannot be represented. -/
theorem StreamLoop.fail (hl : StreamLoop cfg interval samples s hand schedule w)
    {w' : WindowState F} {e : Error} (ht : s.connected = true → t.consumer = true)
    (hbody : forwardWindowEventsIteration (cfg.windows interval) t w = .fail e w')
    (hconnected : s'.connected = s.connected) (hpc : s'.worker = .dropping (.error e))
    (haccepted : s'.accepted = w'.sent.map .window) : StreamFollows cfg interval samples s' := by
  refine .returned (schedule ++ [t]) (.error e) w' (by rw [hpc]; rfl) ?_ nofun
    (run_fail hl.run hbody) haccepted
  rw [hconnected]
  exact hl.consumer_concat ht

theorem StreamLoop.close (hi : StreamInv cfg samples s)
    (hl : StreamLoop cfg interval samples s [] schedule w) {flushAt : Instant}
    (hd : s.deadline = some flushAt) (hover : flushAt ≤ t.now ∨ t.timedOut = true)
    (ht : t.consumer = s.connected) (harm : t.Arms cfg interval) :
    StreamFollows cfg interval samples s.closeWindow := by
  have hbody := iteration_close (cfg.windows interval) t (hl.mirrors.deadline.trans hd) hover
  rw [ht, hl.mirrors.window] at hbody
  rcases StreamRun.flushThen_cases hi.capacity _ with ⟨he, hgoes⟩ | ⟨he, hgone, hstops⟩ <;>
    rw [StreamRun.closeWindow, he]
  · rw [hgoes, if_pos rfl] at hbody
    have hm := hl.mirrors.flush
    exact hl.next (fun hc => ht.trans hc) harm hbody rfl rfl ⟨rfl, rfl, hm.rx, hm.accepted⟩
  · rw [hstops, if_neg Bool.false_ne_true, hgone] at hbody
    have hsent : (w.flush false).sent = w.sent := by simp [WindowState.flush]
    exact hl.gone harm hbody (ht.trans hgone) hgone rfl
      ⟨rfl, hl.mirrors.deadline, hl.mirrors.rx,
        hl.mirrors.accepted.trans (congrArg _ hsent.symm)⟩ hsent

theorem StreamFollows.worker {v : Instant} (hi : StreamInv cfg samples s)
    (hmode : cfg.mode = .window interval)
    (hvalid : (checkedDeadline cfg.limit v interval).isOk = true)
    (hf : StreamFollows cfg interval samples s) (h : StreamWorkerStep cfg s s') :
    StreamFollows cfg interval samples s' := by
  cases h with
  | skip hpc hmode' => exact absurd (hmode.symm.trans hmode') nofun
  | overdue now flushAt hpc hd hnow =>
    obtain ⟨schedule, w, hl⟩ := hf.loop [] (by rw [hpc]; rfl)
    exact hl.close (t := ⟨now, false, v, s.connected⟩) hi hd (.inl hnow) rfl hvalid
  | wait now hpc hmode' hnow =>
    obtain ⟨schedule, w, hl⟩ := hf.loop [] (by rw [hpc]; rfl)
    refine .looping schedule w [] rfl ⟨?_, hl.consumer, hl.arms, hl.run, ?_⟩
    · intro now' flushAt hclock hd
      obtain rfl := Option.some.inj hclock
      exact hnow flushAt hd
    · exact ⟨hl.mirrors.window, hl.mirrors.deadline, hl.mirrors.rx, hl.mirrors.accepted⟩
  | receive now metrics rest hpc hb =>
    obtain ⟨schedule, w, hl⟩ := hf.loop [] (by rw [hpc]; rfl)
    refine .looping schedule w [metrics] rfl ⟨?_, hl.consumer, hl.arms, hl.run, ?_⟩
    · intro now' flushAt hclock hd
      exact hl.now now' flushAt (by rw [hpc]; exact hclock) hd
    · refine ⟨hl.mirrors.window, hl.mirrors.deadline, ?_, hl.mirrors.accepted⟩
      rw [hl.mirrors.rx, hb]
      rfl
  | timeout now flushAt hpc hd =>
    obtain ⟨schedule, w, hl⟩ := hf.loop [] (by rw [hpc]; rfl)
    exact hl.close (t := ⟨now, true, v, s.connected⟩) hi hd (.inr rfl) rfl hvalid
  | disconnect now hpc hb hs =>
    obtain ⟨schedule, w, hl⟩ := hf.loop [] (by rw [hpc]; rfl)
    have hregistered : s.registered = false := by
      by_contra hreg
      have hsenders := hi.rawSenders
      rw [hs, if_pos (Bool.eq_true_of_not_eq_false hreg)] at hsenders
      cases hsenders
    have hrx : w.rx = [] := by
      rw [hl.mirrors.rx, hb, hi.finished hregistered]
      rfl
    refine .leaving schedule ⟨now, false, v, true⟩ w w (by rw [hmode]; rfl) hl.consumer hl.arms
      hl.run hvalid (fun consumer _ => ?_) ?_ rfl
    · refine iteration_disconnected _ _ hrx rfl fun flushAt hd => ?_
      exact hl.now now flushAt (by rw [hpc]; rfl) (hl.mirrors.deadline.symm.trans hd)
    · exact ⟨hl.mirrors.window, hl.mirrors.deadline, hl.mirrors.rx, hl.mirrors.accepted⟩
  | forward now metrics hpc hmode' => exact absurd (hmode.symm.trans hmode') nofun
  | first now rearm metrics interval' hpc hmode' hd =>
    obtain rfl : interval = interval' := MetricsMode.window.inj (hmode.symm.trans hmode')
    obtain ⟨schedule, w, hl⟩ := hf.loop [metrics] (by rw [hpc]; rfl)
    have hbody := iteration_first (cfg.windows interval)
      ⟨now, false, rearm, s.connected⟩ (hl.mirrors.deadline.trans hd) hl.mirrors.rx
    cases harm : checkedDeadline cfg.limit rearm interval with
    | error e =>
      simp only [StreamConfig.windows, armed, harm] at hbody
      exact hl.fail (fun hc => hc) hbody rfl rfl hl.mirrors.accepted
    | ok deadline =>
      simp only [StreamConfig.windows, armed, harm] at hbody
      have harms : (⟨now, false, rearm, s.connected⟩ : Wakeup).Arms cfg interval := by
        rw [Wakeup.Arms, harm]
        rfl
      refine hl.next (fun hc => hc) harms hbody rfl rfl ⟨?_, rfl, rfl, hl.mirrors.accepted⟩
      show w.window ++ [metrics] = s.window ++ [metrics]
      rw [hl.mirrors.window]
  | join now flushAt metrics interval' hpc hmode' hd hc =>
    obtain ⟨schedule, w, hl⟩ := hf.loop [metrics] (by rw [hpc]; rfl)
    have hbody := iteration_join (cfg.windows interval)
      ⟨now, false, v, s.connected⟩ (hl.mirrors.deadline.trans hd)
      (hl.now now flushAt (by rw [hpc]; rfl) hd) rfl hl.mirrors.rx (hl.mirrors.window ▸ hc)
    have harms : (⟨now, false, v, s.connected⟩ : Wakeup).Arms cfg interval := hvalid
    refine hl.next (fun hc => hc) harms hbody rfl rfl
      ⟨?_, hl.mirrors.deadline, rfl, hl.mirrors.accepted⟩
    show w.window ++ [metrics] = s.window ++ [metrics]
    rw [hl.mirrors.window]
  | split now flushAt rearm metrics interval' hpc hmode' hd hc =>
    obtain rfl : interval = interval' := MetricsMode.window.inj (hmode.symm.trans hmode')
    obtain ⟨schedule, w, hl⟩ := hf.loop [metrics] (by rw [hpc]; rfl)
    have hd' := hl.mirrors.deadline.trans hd
    have hlt := hl.now now flushAt (by rw [hpc]; rfl) hd
    have hm := hl.mirrors.flush
    rcases StreamRun.flushThen_cases hi.capacity _ with ⟨he, hgoes⟩ | ⟨he, hgone, hstops⟩ <;>
      rw [he]
    · have hbody := iteration_split (cfg.windows interval)
        ⟨now, false, rearm, s.connected⟩ hd' hlt rfl hl.mirrors.rx (hl.mirrors.window ▸ hc)
      rw [hl.mirrors.window, hgoes, if_pos rfl] at hbody
      cases harm : checkedDeadline cfg.limit rearm interval with
      | error e =>
        simp only [StreamConfig.windows, armed, harm] at hbody
        exact hl.fail (fun hc => hc) hbody rfl rfl hm.accepted
      | ok deadline =>
        simp only [StreamConfig.windows, armed, harm] at hbody
        have harms : (⟨now, false, rearm, s.connected⟩ : Wakeup).Arms cfg interval := by
          rw [Wakeup.Arms, harm]
          rfl
        exact hl.next (fun hc => hc) harms hbody rfl rfl ⟨rfl, rfl, rfl, hm.accepted⟩
    · have hbody := iteration_split (cfg.windows interval)
        ⟨now, false, v, s.connected⟩ hd' hlt rfl hl.mirrors.rx (hl.mirrors.window ▸ hc)
      rw [hl.mirrors.window, hstops, if_neg Bool.false_ne_true, hgone] at hbody
      have harms : (⟨now, false, v, false⟩ : Wakeup).Arms cfg interval := hvalid
      have hsent : (w.flush false).sent = w.sent := by simp [WindowState.flush]
      exact hl.gone harms hbody rfl hgone rfl
        ⟨rfl, hl.mirrors.deadline, rfl, hl.mirrors.accepted.trans (congrArg _ hsent.symm)⟩ hsent
  | finalFlush hpc =>
    cases hf with
    | looping schedule w hand hhand hl =>
      rw [hpc] at hhand
      cases hhand
    | returned schedule result w hresult =>
      rw [hpc] at hresult
      cases hresult
    | leaving schedule t w w' hpc' hconsumer harms hrun harm hstop hm hsent =>
      rw [StreamRun.flush_eq hi.capacity]
      refine .returned (schedule ++ [{ t with consumer := s.connected }]) (.ok ()) _ rfl ?_ ?_
        (run_stop hrun (hstop s.connected id)) hm.flush.accepted
      · intro hc t' hmem
        rcases List.mem_append.mp hmem with hmem | hmem
        · exact hconsumer hc t' hmem
        · rw [List.mem_singleton.mp hmem]
          exact hc
      · intro _ t' hmem
        rcases List.mem_append.mp hmem with hmem | hmem
        · exact harms t' hmem
        · rw [List.mem_singleton.mp hmem]
          exact harm
  | dropFirst result hpc =>
    refine hf.retire (by rw [hpc]; rfl) rfl rfl ?_
    simp [hmode, MetricsMode.dropsTxFirst, StreamRun.connected, Chan.dropSender]
  | dropSecond result hpc =>
    refine hf.retire (by rw [hpc]; rfl) rfl rfl ?_
    simp [hmode, MetricsMode.dropsTxFirst, StreamRun.connected]

theorem checkedDeadline_of_validate {limit v : Instant}
    (h : (MetricsMode.window interval).validate limit v = .ok ()) :
    (checkedDeadline limit v interval).isOk = true := by
  simp only [MetricsMode.validate] at h
  split at h
  · cases h
  · cases harm : checkedDeadline limit v interval with
    | ok deadline => rfl
    | error e =>
      rw [harm] at h
      cases h

theorem StreamRun.Reachable.follows {v : Instant} (hmode : cfg.mode = .window interval)
    (hvalid : cfg.mode.validate cfg.limit v = .ok ()) (h : StreamRun.Reachable cfg samples s) :
    StreamFollows cfg interval samples s := by
  rw [hmode] at hvalid
  induction h with
  | refl => exact .start cfg interval samples
  | tail hbefore hstep ih =>
    have hi := StreamRun.Reachable.inv hbefore
    cases hstep with
    | callback h => exact ih.callback hi h
    | worker h => exact ih.worker hi hmode (checkedDeadline_of_validate hvalid) h
    | consumer h => exact ih.consumer h

/-- In every interleaving, the worker of a windowed stream has done what the loop does on the list
of all samples, for some schedule in which the application is there unless it has dropped the
stream. -/
theorem stream_refines {v : Instant} (hmode : cfg.mode = .window interval)
    (hvalid : cfg.mode.validate cfg.limit v = .ok ()) (h : StreamRun.Reachable cfg samples s) :
    ∃ schedule, (s.connected = true → ∀ t ∈ schedule, t.consumer = true) ∧
      let run := forwardWindowEvents (cfg.windows interval) schedule (.start samples)
      run.result = s.worker.result ∧ s.accepted = run.state.sent.map .window ∧
        ∀ hand, s.worker.hand = some hand →
          run.state.window = s.window ∧ run.state.deadline = s.deadline ∧
            run.state.rx = hand ++ s.raw.chan.buf ++ s.todo := by
  cases h.follows hmode hvalid with
  | looping schedule w hand hpc hl =>
    refine ⟨schedule, hl.consumer, ?_⟩
    rw [hl.run]
    refine ⟨(StreamPc.of_hand hpc).1.symm, hl.mirrors.accepted, fun hand' hhand => ?_⟩
    obtain rfl := Option.some.inj (hpc.symm.trans hhand)
    exact ⟨hl.mirrors.window, hl.mirrors.deadline, hl.mirrors.rx⟩
  | leaving schedule t w w' hpc hconsumer harms hrun harm hstop hm hsent =>
    refine ⟨schedule, hconsumer, ?_⟩
    rw [hrun, hpc]
    refine ⟨rfl, ?_, nofun⟩
    rw [hm.accepted, hsent]
    rfl
  | returned schedule result w hpc hconsumer harms hrun haccepted =>
    refine ⟨schedule, hconsumer, ?_⟩
    rw [hrun]
    refine ⟨hpc.symm, haccepted, fun hand hhand => ?_⟩
    rw [(StreamPc.of_hand hhand).1] at hpc
    cases hpc

def secondStream : StreamConfig := ⟨10 ^ 12, .window .second⟩

def threeSamples : List (Metrics ExactF64) := [senderSample, receiverSample, receiverSample]

/-- The second sample splits the first window, a timeout closes its own, and the third is sent when
the worker finds the channel disconnected. -/
theorem secondStream_reachable : ∃ s : StreamRun ExactF64,
    StreamRun.Reachable secondStream threeSamples s ∧ s.worker.result = some (.ok ()) ∧
      s.connected = true ∧ s.received.length = 3 ∧ .error .closed ∈ s.replies := by
  have h : StreamRun.Reachable secondStream threeSamples (.start threeSamples) := .refl
  have h := h.tail (.callback (.emit senderSample [receiverSample, receiverSample] rfl rfl rfl))
  have h := h.tail (.worker (.wait 0 rfl nofun nofun))
  have h := h.tail (.callback (.emit receiverSample [receiverSample] rfl rfl rfl))
  have h := h.tail (.worker (.receive 0 senderSample [receiverSample] rfl rfl))
  have h := h.tail (.worker (.first 0 5 senderSample .second rfl rfl rfl))
  have h := h.tail (.worker (.wait 7 rfl nofun (by decide)))
  have h := h.tail (.worker (.receive 7 receiverSample [] rfl rfl))
  have h := h.tail (.worker (.split 7 1000000005 9 receiverSample .second rfl rfl rfl rfl))
  have h := h.tail (.consumer (.event .recv 10 _ _ (by decide) trivial rfl))
  have h := h.tail (.worker (.wait 11 rfl nofun (by decide)))
  have h := h.tail (.worker (.timeout 11 1000000009 rfl rfl))
  have h := h.tail (.worker (.wait 1000000010 rfl nofun nofun))
  have h := h.tail (.callback (.emit receiverSample [] rfl rfl rfl))
  have h := h.tail (.worker (.receive 1000000010 receiverSample [] rfl rfl))
  have h := h.tail (.worker (.first 1000000010 1000000012 receiverSample .second rfl rfl rfl))
  have h := h.tail (.callback (.unregister rfl rfl rfl))
  have h := h.tail (.worker (.wait 1000000013 rfl nofun (by decide)))
  have h := h.tail (.worker (.disconnect 1000000013 rfl rfl rfl))
  have h := h.tail (.worker (.finalFlush rfl))
  have h := h.tail (.worker (.dropFirst (.ok ()) rfl))
  have h := h.tail (.consumer (.event .recv 1000000014 _ _ (by decide) trivial rfl))
  have h := h.tail (.consumer (.event .tryRecv 1000000015 _ _ (by decide) trivial rfl))
  have h := h.tail (.consumer (.closed .recv 1000000016 (by decide) trivial rfl rfl))
  exact ⟨_, h, rfl, rfl, rfl, List.mem_append_right _ (List.mem_singleton_self _)⟩

theorem stream_refines_second : ∃ (s : StreamRun ExactF64) (schedule : List Wakeup),
    let run := forwardWindowEvents (secondStream.windows .second) schedule (.start threeSamples)
    (∀ t ∈ schedule, t.consumer = true) ∧ run.result = some (.ok ()) ∧ s.received.length = 3 ∧
      s.accepted = run.state.sent.map .window := by
  obtain ⟨s, hreachable, hresult, hconnected, hreceived, -⟩ := secondStream_reachable
  obtain ⟨schedule, hconsumer, hrun, haccepted, -⟩ :=
    stream_refines (v := 0) rfl (by decide) hreachable
  exact ⟨s, schedule, hconsumer hconnected, hrun.trans hresult, hreceived, haccepted⟩

end Iperf3Rs
