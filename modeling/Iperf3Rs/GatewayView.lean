import Iperf3Rs.BestEffort

/-! What a Pushgateway holds while the reporter pushes to it. A request that is in flight may be
carried out or not, its answer may be lost, and one that the delivery worker has given up on may
still be carried out later. A PUT replaces what the group holds, and a DELETE removes it. -/

namespace Iperf3Rs

/-- What has been carried out is the calls in their order, each of them any number of times. -/
def CarriedInOrder {α : Type*} (calls carried : List α) : Prop :=
  ∃ positions : List ℕ, positions.Pairwise (· ≤ ·) ∧
    carried.map some = positions.map fun position => calls[position]?

namespace CarriedInOrder

variable {α : Type*} {calls carried : List α}

theorem nil (calls : List α) : CarriedInOrder calls [] := ⟨[], .nil, rfl⟩

theorem lt_length {positions : List ℕ}
    (h : carried.map some = positions.map fun position => calls[position]?) :
    ∀ position ∈ positions, position < calls.length := by
  intro position hmem
  have hsome : calls[position]? ∈ carried.map some := by
    rw [h]
    exact List.mem_map_of_mem hmem
  obtain ⟨call, -, hcall⟩ := List.mem_map.mp hsome
  exact (List.getElem?_eq_some_iff.mp hcall.symm).1

theorem call (h : CarriedInOrder calls carried) (more : List α) :
    CarriedInOrder (calls ++ more) carried := by
  obtain ⟨positions, hsorted, heq⟩ := h
  refine ⟨positions, hsorted, heq.trans (List.map_congr_left fun position hmem => ?_)⟩
  exact (List.getElem?_append_left (lt_length heq position hmem)).symm

/-- The call made last is carried out, for the first time or again. -/
theorem carry (h : CarriedInOrder calls carried) {call : α} (hlast : calls.getLast? = some call) :
    CarriedInOrder calls (carried ++ [call]) := by
  obtain ⟨positions, hsorted, heq⟩ := h
  refine ⟨positions ++ [calls.length - 1], ?_, ?_⟩
  · refine List.pairwise_append.mpr ⟨hsorted, List.pairwise_singleton _ _, ?_⟩
    intro position hmem last hlastMem
    have hlt := lt_length heq position hmem
    rw [List.mem_singleton] at hlastMem
    omega
  · rw [List.map_append, List.map_append, heq, List.map_singleton, List.map_singleton,
      ← List.getLast?_eq_getElem?, hlast]

end CarriedInOrder

variable {F : Type}

namespace HttpCall

/-- What the group holds behind the call. -/
def content : HttpCall F → Option (MetricEvent F)
  | .push event => some event
  | .delete => none

end HttpCall

def HttpEvent.called : HttpEvent F → Option (HttpCall F)
  | .call made => some made
  | _ => none

def DeliveryPc.inProgress : DeliveryPc F → List (HttpCall F)
  | .calling call _ _ => [call]
  | _ => []

variable [F64 F]

def Reporter.calls (s : Reporter F) : List (HttpCall F) := s.log.filterMap HttpEvent.called

/-- The reporter and the Pushgateway. `reached` is whether the request in flight has been carried
out, and `overdue` are requests that nobody waits for any more. The rest is history: what has been
carried out, how the calls have returned, and whether a request has been carried out late. -/
structure Gateway (F : Type) [F64 F] where
  reporter : Reporter F
  reached : Bool
  overdue : List (HttpCall F)
  carried : List (HttpCall F)
  returned : List (HttpCall F × Attempt)
  late : Bool

namespace Gateway

def start (cfg : ReporterConfig) (samples : List (Metrics F)) : Gateway F :=
  ⟨.start cfg samples, false, [], [], [], false⟩

/-- The requests that nobody waits for behind an attempt. -/
def givenUp (g : Gateway F) (call : HttpCall F) : List (HttpCall F) :=
  if g.reached then g.overdue else g.overdue ++ [call]

/-- What the group holds, if it has held `before` at the start of the run. -/
def group (g : Gateway F) (before : Option (MetricEvent F)) : Option (MetricEvent F) :=
  g.carried.foldl (fun _ call => call.content) before

inductive Step (cfg : ReporterConfig) (g : Gateway F) : Gateway F → Prop
  | callback {s' : Reporter F} (h : CallbackStep g.reporter s') :
      Step cfg g { g with reporter := s' }
  | sink {s' : Reporter F} (h : SinkStep cfg g.reporter s') : Step cfg g { g with reporter := s' }
  | next {s' : Reporter F} (hpc : g.reporter.delivery = .receiving)
      (h : DeliveryStep cfg g.reporter s') : Step cfg g { g with reporter := s' }
  | request {s' : Reporter F} (call : HttpCall F) (attempt : ℕ)
      (hpc : g.reporter.delivery = .calling call attempt false)
      (h : DeliveryStep cfg g.reporter s') :
      Step cfg g { g with reporter := s', reached := false }
  | carryOut (call : HttpCall F) (attempt : ℕ)
      (hpc : g.reporter.delivery = .calling call attempt true) (hnew : g.reached = false) :
      Step cfg g { g with carried := g.carried ++ [call], reached := true }
  -- the answer is a retryable failure, or none has come in time
  | retry {s' : Reporter F} (call : HttpCall F) (attempt : ℕ)
      (hpc : g.reporter.delivery = .calling call attempt true)
      (h : DeliveryStep cfg g.reporter s')
      (hagain : s'.delivery = .calling call (attempt + 1) false) :
      Step cfg g { g with reporter := s', overdue := g.givenUp call }
  -- a status of success is that of a request that has been carried out
  | respond {s' : Reporter F} (call : HttpCall F) (attempt : ℕ) (outcome : Attempt)
      (hpc : g.reporter.delivery = .calling call attempt true)
      (h : DeliveryStep cfg g.reporter s') (hnext : s'.delivery = call.next)
      (hout : outcome = .failure true → cfg.retries ≤ attempt)
      (hsuccess : outcome = .success → g.reached = true) :
      Step cfg g
        { g with
          reporter := s'
          overdue := g.givenUp call
          returned := g.returned ++ [(call, outcome)] }
  | overdue (call : HttpCall F) (before after : List (HttpCall F))
      (hsplit : g.overdue = before ++ call :: after) :
      Step cfg g
        { g with overdue := before ++ after, carried := g.carried ++ [call], late := true }

def Reachable (cfg : ReporterConfig) (samples : List (Metrics F)) (g : Gateway F) : Prop :=
  Relation.ReflTransGen (Step cfg) (start cfg samples) g

/-- The Pushgateway takes no part in what the reporter does. -/
theorem Reachable.reporter {cfg : ReporterConfig} {samples : List (Metrics F)} {g : Gateway F}
    (h : Reachable cfg samples g) : Reporter.Reachable cfg samples g.reporter := by
  induction h with
  | refl => exact .refl
  | tail _ hs ih =>
    cases hs with
    | callback h => exact ih.tail (.callback h)
    | sink h => exact ih.tail (.sink h)
    | next hpc h | request call attempt hpc h | retry call attempt hpc h hagain
    | respond call attempt outcome hpc h hnext hout hsuccess => exact ih.tail (.delivery h)
    | carryOut call attempt hpc hnew => exact ih
    | overdue call before after hsplit => exact ih

section Delivery

variable {cfg : ReporterConfig} {s s' : Reporter F} {call : HttpCall F} {attempt : ℕ}

theorem calls_of_next (h : DeliveryStep cfg s s') (hpc : s.delivery = .receiving) :
    (∃ call, s'.calls = s.calls ++ [call] ∧ s'.delivery = .calling call 0 false) ∨
      s'.calls = s.calls ∧ s'.delivery = .done := by
  cases h with
  | receive event rest hd hb =>
    exact .inl ⟨.push event, by simp [Reporter.calls, HttpEvent.called], rfl⟩
  | request call attempt hd | retry call attempt hd | respond call attempt outcome hd =>
    rw [hd] at hpc
    cases hpc
  | finish hd hb hs =>
    by_cases hdelete : cfg.deleteOnFinish = true
    · exact .inl ⟨.delete, by simp [Reporter.calls, HttpEvent.called, hdelete], by simp [hdelete]⟩
    · exact .inr ⟨by simp [Reporter.calls, hdelete], by simp [hdelete]⟩

theorem calls_of_request (h : DeliveryStep cfg s s')
    (hpc : s.delivery = .calling call attempt false) :
    s'.calls = s.calls ∧ s'.delivery = .calling call attempt true := by
  cases h with
  | request call' attempt' hd =>
    rw [hd] at hpc
    cases hpc
    exact ⟨by simp [Reporter.calls, HttpEvent.called], rfl⟩
  | receive event rest hd | retry call attempt hd | respond call attempt outcome hd
  | finish hd =>
    rw [hd] at hpc
    cases hpc

theorem calls_of_answer (h : DeliveryStep cfg s s')
    (hpc : s.delivery = .calling call attempt true) : s'.calls = s.calls := by
  cases h with
  | retry call' attempt' hd | respond call' attempt' outcome hd =>
    simp [Reporter.calls, HttpEvent.called]
  | receive event rest hd | request call attempt hd | finish hd =>
    rw [hd] at hpc
    cases hpc

end Delivery

structure Inv (g : Gateway F) : Prop where
  calls : g.reporter.calls = g.returned.map Prod.fst ++ g.reporter.delivery.inProgress
  order : g.late = false → CarriedInOrder g.reporter.calls g.carried
  reached : g.late = false → g.reached = true →
    ∀ call attempt, g.reporter.delivery = .calling call attempt true →
      g.carried.getLast? = some call
  settled : g.late = false → g.reporter.delivery.inProgress = [] →
    ∀ call, g.returned.getLast? = some (call, .success) → g.carried.getLast? = some call

theorem Inv.start (cfg : ReporterConfig) (samples : List (Metrics F)) :
    (start cfg samples).Inv where
  calls := rfl
  order _ := .nil _
  reached _ h := by cases h
  settled _ _ call h := by cases h

/-- Steps that are none of the delivery worker's. -/
theorem Inv.keep {g : Gateway F} (h : g.Inv) {s' : Reporter F}
    (hlog : s'.log = g.reporter.log) (hdelivery : s'.delivery = g.reporter.delivery) :
    ({ g with reporter := s' } : Gateway F).Inv := by
  have hcalls : s'.calls = g.reporter.calls := by rw [Reporter.calls, hlog, Reporter.calls]
  refine ⟨?_, fun hlate => ?_, fun hlate hreached call attempt hpc => ?_,
    fun hlate hidle => ?_⟩
  · simpa only [hcalls, hdelivery] using h.calls
  · simpa only [hcalls] using h.order hlate
  · exact h.reached hlate hreached call attempt (hdelivery ▸ hpc)
  · exact h.settled hlate (hdelivery ▸ hidle)

theorem Inv.last {g : Gateway F} (h : g.Inv) {call : HttpCall F} {attempt : ℕ} {inFlight : Bool}
    (hpc : g.reporter.delivery = .calling call attempt inFlight) :
    g.reporter.calls.getLast? = some call := by
  rw [h.calls, hpc]
  exact List.getLast?_append_of_ne_nil _ (List.cons_ne_nil _ _)

omit [F64 F] in
theorem inProgress_next (call : HttpCall F) : call.next.inProgress = [] := by
  cases call <;> rfl

theorem Inv.step {cfg : ReporterConfig} {g g' : Gateway F} (h : g.Inv) (hs : Step cfg g g') :
    g'.Inv := by
  cases hs with
  | callback hc => cases hc <;> exact h.keep rfl rfl
  | sink hc =>
    obtain ⟨-, -, hdelivery, hlog⟩ := hc.callback_eq
    exact h.keep hlog hdelivery
  | next hpc hd =>
    have hcalls := h.calls
    rw [hpc] at hcalls
    rcases calls_of_next hd hpc with ⟨call, hmade, hcalling⟩ | ⟨hsame, hdone⟩
    · refine ⟨?_, fun hlate => ?_, fun _ _ call' attempt' hpc' => ?_, fun _ hidle => ?_⟩
      · rw [hmade, hcalling, hcalls]
        simp [DeliveryPc.inProgress]
      · simpa only [hmade] using (h.order hlate).call [call]
      · rw [hcalling] at hpc'
        cases hpc'
      · rw [hcalling] at hidle
        cases hidle
    · refine ⟨?_, fun hlate => ?_, fun _ _ call' attempt' hpc' => ?_, fun hlate _ => ?_⟩
      · rw [hsame, hdone]
        exact hcalls
      · simpa only [hsame] using h.order hlate
      · rw [hdone] at hpc'
        cases hpc'
      · exact h.settled hlate (by rw [hpc]; rfl)
  | request call attempt hpc hd =>
    obtain ⟨hsame, hcalling⟩ := calls_of_request hd hpc
    refine ⟨?_, fun hlate => ?_, fun _ hreached => (Bool.noConfusion hreached),
      fun _ hidle => ?_⟩
    · rw [hsame, hcalling, h.calls, hpc]
      rfl
    · simpa only [hsame] using h.order hlate
    · rw [hcalling] at hidle
      cases hidle
  | carryOut call attempt hpc hnew =>
    have hlast := h.last hpc
    refine ⟨h.calls, fun hlate => (h.order hlate).carry hlast,
      fun _ _ call' attempt' hpc' => ?_, fun _ hidle => ?_⟩
    · rw [hpc] at hpc'
      cases hpc'
      exact List.getLast?_concat
    · rw [hpc] at hidle
      cases hidle
  | retry call attempt hpc hd hagain =>
    have hsame := calls_of_answer hd hpc
    refine ⟨?_, fun hlate => ?_, fun _ _ call' attempt' hpc' => ?_, fun _ hidle => ?_⟩
    · rw [hsame, hagain, h.calls, hpc]
      rfl
    · simpa only [hsame] using h.order hlate
    · rw [hagain] at hpc'
      cases hpc'
    · rw [hagain] at hidle
      cases hidle
  | respond call attempt outcome hpc hd hnext hout hsuccess =>
    have hsame := calls_of_answer hd hpc
    refine ⟨?_, fun hlate => ?_, fun _ _ call' attempt' hpc' => ?_, fun hlate _ call' hlast => ?_⟩
    · rw [hsame, hnext, inProgress_next, h.calls, hpc]
      simp [DeliveryPc.inProgress]
    · simpa only [hsame] using h.order hlate
    · rw [hnext] at hpc'
      cases call <;> cases hpc'
    · rw [List.getLast?_concat] at hlast
      cases hlast
      exact h.reached hlate (hsuccess rfl) call attempt hpc
  | overdue call before after hsplit =>
    exact ⟨h.calls, fun hlate => (Bool.noConfusion hlate), fun hlate => (Bool.noConfusion hlate),
      fun hlate => (Bool.noConfusion hlate)⟩

theorem Reachable.inv {cfg : ReporterConfig} {samples : List (Metrics F)} {g : Gateway F}
    (h : Reachable cfg samples g) : g.Inv := by
  induction h with
  | refl => exact .start cfg samples
  | tail _ hs ih => exact ih.step hs

section Events

variable {cfg : ReporterConfig} {samples : List (Metrics F)} {s : Reporter F}

omit [F64 F] in
theorem taken_sublist {α : Type*} {queue : MetricsQueue} {l : Link α} (h : l.Sound queue) :
    l.taken.Sublist l.offered := by
  cases queue with
  | latest =>
    have hsurviving := Link.Fresh.sublist h
    rw [Link.surviving, List.append_assoc] at hsurviving
    exact (List.sublist_append_left _ _).trans hsurviving
  | all => exact (List.sublist_append_left _ _).trans h.1.isPrefix.sublist

theorem pushes_eq (s : Reporter F) : s.pushes = s.calls.filterMap HttpCall.content := by
  rw [Reporter.pushes, Reporter.calls, List.filterMap_filterMap]
  congr 1
  funext event
  cases event with
  | call made => cases made <;> rfl
  | request | response | ret => rfl

/-- The events that a run is to push: its windows, or its samples one by one. -/
def toPush (cfg : ReporterConfig) (samples : List (Metrics F)) (s : Reporter F) :
    List (MetricEvent F) :=
  if cfg.pushInterval.isSome then s.flushed.map fun w => .window w.metrics
  else samples.map .interval

theorem not_failed (hwrites : ∀ k, cfg.fileWrite k = .ok ())
    (h : Reporter.Reachable cfg samples s) (hmode : cfg.pushInterval = none) :
    s.sink.failed = false := by
  have hover := (h.inv.immediate hmode).1.overflowed
  rw [Bool.eq_false_iff]
  intro hfailed
  rw [overflowed_of_failed hwrites h hfailed] at hover
  cases hover

theorem pushes_sublist (hwrites : ∀ k, cfg.fileWrite k = .ok ())
    (h : Reporter.Reachable cfg samples s) : s.pushes.Sublist (toPush cfg samples s) := by
  have hinv := h.inv
  have htaken := taken_sublist hinv.events.sound
  rw [hinv.log.pushes, toPush]
  cases hmode : cfg.pushInterval with
  | some interval =>
    have hoffered := (hinv.windowed (by rw [hmode]; exact Option.some_ne_none _)).offered
    rw [hoffered] at htaken
    exact htaken
  | none =>
    have hoffered := (hinv.immediate hmode).2 (not_failed hwrites h hmode)
    have hraw := taken_sublist hinv.raw.sound
    have hsamples : s.raw.offered.Sublist samples := by
      rw [← hinv.raw.offered]
      exact List.sublist_append_left _ _
    have hforwarded : s.events.offered.Sublist (s.raw.taken.map .interval) := by
      rw [← hoffered]
      exact List.sublist_append_left _ _
    exact htaken.trans (hforwarded.trans ((hraw.trans hsamples).map _))

/-- Behind the end of a run the last event has been pushed. -/
theorem last_push (hwrites : ∀ k, cfg.fileWrite k = .ok ())
    (h : Reporter.Reachable cfg samples s) {result : Except Error Unit}
    (hfinished : s.Finished result) :
    s.pushes.getLast? = (toPush cfg samples s).getLast? := by
  have hinv := h.inv
  have hdone := hinv.joined result hfinished.2
  obtain ⟨-, hdelivered⟩ := hinv.events.delivered (by rw [hdone]; rfl)
  rw [hinv.log.pushes, hdelivered.newest, toPush]
  cases hmode : cfg.pushInterval with
  | some interval =>
    rw [(hinv.windowed (by rw [hmode]; exact Option.some_ne_none _)).offered]
    rfl
  | none =>
    have hfailed := not_failed hwrites h hmode
    have hoffered := (hinv.immediate hmode).2 hfailed
    have hresult := @SinkPc.result_of_not_failed F s.sink result (by rw [hfinished.2]; rfl) hfailed
    have hok : s.sink = .done (.ok ()) := by rw [hfinished.2, hresult]
    have hnothing : (SinkPc.done (.ok ()) : SinkPc F).inHand = [] := rfl
    rw [hok, hnothing, List.map_nil, List.append_nil] at hoffered
    rw [hoffered, List.getLast?_map, (hinv.received hok).2.1, ← List.getLast?_map]
    rfl

end Events

section View

variable {cfg : ReporterConfig} {samples : List (Metrics F)} {g : Gateway F}

/-- What has been carried out last is what the group holds. -/
theorem group_of_last {call : HttpCall F} (h : g.carried.getLast? = some call)
    (before : Option (MetricEvent F)) : g.group before = call.content := by
  obtain ⟨front, hfront⟩ := List.getLast?_eq_some_iff.mp h
  rw [group, hfront, List.foldl_concat]

omit [F64 F] in
theorem called_nil {log : List (HttpEvent F)} (h : ∀ call, .call call ∉ log) :
    log.filterMap HttpEvent.called = [] := by
  refine List.filterMap_eq_nil_iff.mpr fun event hmem => ?_
  cases event with
  | call made => exact absurd hmem (h made)
  | request | response | ret => rfl

theorem last_of_deleted {s : Reporter F} (h : DeletedLast s.log) :
    s.calls.getLast? = some .delete := by
  obtain ⟨before, after, hlog, -, hafter⟩ := h
  rw [Reporter.calls, hlog, List.filterMap_append]
  simp [HttpEvent.called, called_nil hafter]

/-- Unless a request is carried out that nobody waits for any more, the group never goes back to an
older event, however often the pushes are tried again and whichever of their answers are lost: what
it holds goes through the calls in their order, and these push the windows or samples of the run in
theirs. If the last call has succeeded by the end, the group holds the last event, or nothing if it
is to be deleted. -/
theorem gateway_in_order (hwrites : ∀ k, cfg.fileWrite k = .ok ())
    (h : Reachable cfg samples g) (hlate : g.late = false) :
    CarriedInOrder g.reporter.calls g.carried ∧
      (g.reporter.calls.filterMap HttpCall.content).Sublist (toPush cfg samples g.reporter) ∧
      ∀ result call before, g.reporter.Finished result →
        g.returned.getLast? = some (call, .success) →
          g.group before =
            if cfg.deleteOnFinish then none else (toPush cfg samples g.reporter).getLast? := by
  have hrun := h.reporter
  refine ⟨h.inv.order hlate, pushes_eq g.reporter ▸ pushes_sublist hwrites hrun, ?_⟩
  intro result call before hfinished hlast
  have hdone := hrun.inv.joined result hfinished.2
  have hidle : g.reporter.delivery.inProgress = [] := by rw [hdone]; rfl
  have hcalls : g.reporter.calls.getLast? = some call := by
    rw [h.inv.calls, hidle, List.append_nil, List.getLast?_map, hlast]
    rfl
  rw [group_of_last (h.inv.settled hlate hidle call hlast)]
  have hphase := hrun.inv.log.phase
  rw [hdone] at hphase
  by_cases hdelete : cfg.deleteOnFinish = true
  · rw [LogPhase, if_pos hdelete] at hphase
    rw [last_of_deleted hphase] at hcalls
    rw [if_pos hdelete, ← Option.some.inj hcalls]
    rfl
  · rw [LogPhase, if_neg hdelete] at hphase
    obtain ⟨front, hfront⟩ := List.getLast?_eq_some_iff.mp hcalls
    have hmem : call ∈ g.reporter.calls := by simp [hfront]
    rw [if_neg hdelete, ← last_push hwrites hrun hfinished, pushes_eq, hfront,
      List.filterMap_append]
    cases call with
    | push event => exact List.getLast?_concat.symm
    | delete =>
      obtain ⟨event, hevent, hcalled⟩ := List.mem_filterMap.mp hmem
      cases event with
      | call made =>
        cases hcalled
        exact absurd hevent hphase.noDelete
      | request | response | ret => cases hcalled

def keptGroup : ReporterConfig := { immediateGroup with deleteOnFinish := false }

/-- The answer to the first attempt is lost, so that the sample is pushed twice. -/
theorem gateway_in_order_twice : ∃ g : Gateway ExactF64,
    Reachable keptGroup [senderSample] g ∧ g.carried.length = 2 ∧
      g.group none = some (.interval senderSample) := by
  have h : Reachable keptGroup [senderSample] _ := .refl
  have h := h.tail (.callback (.emit senderSample [] rfl rfl rfl))
  have h := h.tail (.sink (.wait 0 rfl rfl (by simp [start, Reporter.start])))
  have h := h.tail (.sink (.receive senderSample [] rfl rfl))
  have h := h.tail (.sink (.write senderSample rfl rfl))
  have h := h.tail (.sink (.forward senderSample rfl rfl))
  have h := h.tail (.next rfl (.receive (.interval senderSample) [] rfl rfl))
  have h := h.tail (.request _ 0 rfl (.request _ 0 rfl))
  have h := h.tail (.carryOut _ 0 rfl rfl)
  have h := h.tail (.retry _ 0 rfl (.retry _ 0 rfl (by decide)) rfl)
  have h := h.tail (.request _ 1 rfl (.request _ 1 rfl))
  have h := h.tail (.carryOut _ 1 rfl rfl)
  have h := h.tail (.respond _ 1 .success rfl (.respond _ 1 .success rfl (by simp)) rfl
    (by simp) (fun _ => rfl))
  have h := h.tail (.callback (.unregister rfl rfl rfl))
  have h := h.tail (.callback (.dropLatest rfl))
  have h := h.tail (.sink (.wait 0 rfl rfl (by simp [start, Reporter.start])))
  have h := h.tail (.sink (.disconnect rfl rfl rfl))
  have h := h.tail (.sink (.finalFlush rfl))
  have h := h.tail (.sink (.return _ rfl))
  have h := h.tail (.sink (.dropTx _ rfl))
  have h := h.tail (.sink (.dropLatest _ rfl))
  have h := h.tail (.next rfl (.finish rfl rfl rfl))
  have h := h.tail (.sink (.joinWorker _ rfl rfl))
  exact ⟨_, h, rfl, (gateway_in_order (fun _ => rfl) h rfl).2.2 (.ok ()) _ none ⟨rfl, rfl⟩ rfl⟩

end View

end Gateway

end Iperf3Rs
