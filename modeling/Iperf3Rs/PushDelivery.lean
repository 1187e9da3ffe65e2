import Iperf3Rs.ReporterDelivery

/-! The history of HTTP activity. It says which events the Pushgateway was handed, and that the
group is deleted by one call after every push attempt has ended. -/

namespace Iperf3Rs

variable {F : Type} [F64 F]

namespace HttpEvent

def pushed : HttpEvent F → Option (MetricEvent F)
  | .call (.push event) => some event
  | _ => none

def isCall : HttpEvent F → Bool
  | .call _ => true
  | _ => false

def isRet : HttpEvent F → Bool
  | .ret => true
  | _ => false

def isRequest : HttpEvent F → Bool
  | .request => true
  | _ => false

def isResponse : HttpEvent F → Bool
  | .response => true
  | _ => false

end HttpEvent

/-- The events handed to `PushGateway::push` and `push_window`, in order. -/
def Reporter.pushes (s : Reporter F) : List (MetricEvent F) := s.log.filterMap HttpEvent.pushed

/-- No delete has been asked for, every request has been answered and every call returned. -/
structure Settled (log : List (HttpEvent F)) : Prop where
  noDelete : .call .delete ∉ log
  answered : log.countP HttpEvent.isRequest = log.countP HttpEvent.isResponse
  returned : log.countP HttpEvent.isCall = log.countP HttpEvent.isRet

/-- A push has been called and has not returned; `inFlight` says whether a request of it waits
for its response. -/
structure Pushing (log : List (HttpEvent F)) (inFlight : Bool) : Prop where
  noDelete : .call .delete ∉ log
  answered : log.countP HttpEvent.isRequest =
    log.countP HttpEvent.isResponse + inFlight.toNat
  returned : log.countP HttpEvent.isCall = log.countP HttpEvent.isRet + 1

omit [F64 F] in
theorem Settled.push {log : List (HttpEvent F)} (h : Settled log) (event : MetricEvent F) :
    Pushing (log ++ [.call (.push event)]) false := by
  refine ⟨by simpa using h.noDelete, ?_, ?_⟩
  · simpa [HttpEvent.isRequest, HttpEvent.isResponse] using h.answered
  · simpa [HttpEvent.isCall, HttpEvent.isRet] using h.returned

omit [F64 F] in
theorem Pushing.request {log : List (HttpEvent F)} (h : Pushing log false) :
    Pushing (log ++ [.request]) true := by
  refine ⟨by simpa using h.noDelete, ?_, ?_⟩
  · simpa [HttpEvent.isRequest, HttpEvent.isResponse] using h.answered
  · simpa [HttpEvent.isCall, HttpEvent.isRet] using h.returned

omit [F64 F] in
theorem Pushing.response {log : List (HttpEvent F)} (h : Pushing log true) :
    Pushing (log ++ [.response]) false := by
  refine ⟨by simpa using h.noDelete, ?_, ?_⟩
  · simpa [HttpEvent.isRequest, HttpEvent.isResponse] using h.answered
  · simpa [HttpEvent.isCall, HttpEvent.isRet] using h.returned

omit [F64 F] in
theorem Pushing.ret {log : List (HttpEvent F)} (h : Pushing log false) :
    Settled (log ++ [.ret]) := by
  refine ⟨by simpa using h.noDelete, ?_, ?_⟩
  · simpa [HttpEvent.isRequest, HttpEvent.isResponse] using h.answered
  · simpa [HttpEvent.isCall, HttpEvent.isRet] using h.returned

/-- The group is deleted by one call, after every push attempt has ended and before no other. -/
def DeletedLast (log : List (HttpEvent F)) : Prop :=
  ∃ before after, log = before ++ .call .delete :: after ∧ Settled before ∧
    ∀ call, .call call ∉ after

omit [F64 F] in
theorem DeletedLast.append {log rest : List (HttpEvent F)} (h : DeletedLast log)
    (hrest : ∀ call, .call call ∉ rest) : DeletedLast (log ++ rest) := by
  obtain ⟨before, after, rfl, hb, ha⟩ := h
  refine ⟨before, after ++ rest, by simp, hb, fun call hc => ?_⟩
  rcases List.mem_append.mp hc with hc | hc
  · exact ha call hc
  · exact hrest call hc

def LogPhase (cfg : ReporterConfig) (log : List (HttpEvent F)) : DeliveryPc F → Prop
  | .receiving => Settled log
  | .calling (.push _) _ inFlight => Pushing log inFlight
  | .calling .delete _ _ => cfg.deleteOnFinish = true ∧ DeletedLast log
  | .done => if cfg.deleteOnFinish then DeletedLast log else Settled log

structure LogInv (cfg : ReporterConfig) (s : Reporter F) : Prop where
  pushes : s.pushes = s.events.taken
  phase : LogPhase cfg s.log s.delivery

theorem LogInv.start (cfg : ReporterConfig) (samples : List (Metrics F)) :
    LogInv cfg (.start cfg samples) :=
  ⟨rfl, by simp [Reporter.start], rfl, rfl⟩

theorem LogInv.keep {cfg : ReporterConfig} {s s' : Reporter F} (h : LogInv cfg s)
    (hlog : s'.log = s.log) (hdel : s'.delivery = s.delivery)
    (htaken : s'.events.taken = s.events.taken) : LogInv cfg s' := by
  refine ⟨?_, ?_⟩
  · simpa only [Reporter.pushes, hlog, htaken] using h.pushes
  · simpa only [hlog, hdel] using h.phase

theorem SinkStep.taken_eq {cfg : ReporterConfig} {s s' : Reporter F} (h : SinkStep cfg s s') :
    s'.events.taken = s.events.taken := by
  cases h.eventsEffect with
  | keep hev => rw [hev]
  | advance _ _ hev | offer _ _ hev | dropTx _ _ hev => rw [hev]; rfl
  | dropLatest _ _ hev =>
    rw [hev]
    split <;> rfl

theorem LogInv.delivery {cfg : ReporterConfig} {s s' : Reporter F} (h : LogInv cfg s)
    (hs : DeliveryStep cfg s s') : LogInv cfg s' := by
  have hp := h.pushes
  have hph := h.phase
  simp only [Reporter.pushes] at hp
  cases hs with
  | receive event rest hpc hb =>
    rw [hpc] at hph
    refine ⟨?_, Settled.push hph event⟩
    simp [Reporter.pushes, hp, HttpEvent.pushed, Link.take]
  | request call attempt hpc =>
    rw [hpc] at hph
    refine ⟨by simp [Reporter.pushes, hp, HttpEvent.pushed], ?_⟩
    cases call with
    | push event => exact Pushing.request hph
    | delete => exact ⟨hph.1, hph.2.append (by simp)⟩
  | retry call attempt hpc hlt =>
    rw [hpc] at hph
    refine ⟨by simp [Reporter.pushes, hp, HttpEvent.pushed], ?_⟩
    cases call with
    | push event => exact Pushing.response hph
    | delete => exact ⟨hph.1, hph.2.append (by simp)⟩
  | respond call attempt outcome hpc hout =>
    rw [hpc] at hph
    refine ⟨by simp [Reporter.pushes, hp, HttpEvent.pushed], ?_⟩
    cases call with
    | push event =>
      have hret := (Pushing.response hph).ret
      rw [List.append_assoc] at hret
      exact hret
    | delete =>
      have hlast : DeletedLast (s.log ++ [.response, .ret]) := hph.2.append (by simp)
      simpa only [LogPhase, HttpCall.next, hph.1, if_true] using hlast
  | finish hpc hb hsend =>
    rw [hpc] at hph
    cases hdel : cfg.deleteOnFinish with
    | false =>
      refine ⟨hp, ?_⟩
      simpa [LogPhase, hdel] using hph
    | true =>
      refine ⟨by simp [Reporter.pushes, hp, HttpEvent.pushed, Link.dropReceiver], ?_⟩
      simp only [if_true]
      exact ⟨hdel, s.log, [], rfl, hph, by simp⟩

theorem LogInv.step {cfg : ReporterConfig} {s s' : Reporter F} (h : LogInv cfg s)
    (hs : ReporterStep cfg s s') : LogInv cfg s' := by
  cases hs with
  | callback hs => cases hs <;> exact h.keep rfl rfl rfl
  | sink hs =>
    obtain ⟨-, -, hdel, hlog⟩ := hs.callback_eq
    exact h.keep hlog hdel hs.taken_eq
  | delivery hs => exact h.delivery hs

end Iperf3Rs
