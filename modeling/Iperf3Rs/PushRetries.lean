import Iperf3Rs.BoundedRetry
import Iperf3Rs.DurationArithmetic

/-! The two retry loops of the Pushgateway client. What one request comes to is a parameter: the
client fails, or the response has a status, whose text `text` prints. -/

namespace Iperf3Rs

inductive HttpMethod where
  | put
  | delete
  deriving DecidableEq

structure HttpRequest (Url : Type) where
  method : HttpMethod
  url : Url
  headers : List (String × String)
  body : Option String

inductive HttpAnswer where
  | failed
  | status (code : ℕ)
  deriving DecidableEq

structure PushAttemptError where
  error : Error
  retryable : Bool
  deriving DecidableEq

structure PushGateway (Url : Type) where
  url : Url
  retries : ℕ
  metricPrefix : String
  deleteOnFinish : Bool

/-- How a method that may panic ends. -/
inductive PushEnd where
  | returned (result : Except Error Unit)
  | unreachable (message : String)

/-- What a push or a delete does outside the process, in order. -/
inductive PushEvent (Url : Type) where
  | request (request : HttpRequest Url)
  | sleep (delay : Duration)

structure PushRun (Url : Type) where
  events : List (PushEvent Url)
  outcome : PushEnd

def pushRetryBaseDelay : Duration := .fromMillis 100 (by decide)

def pushRetryMaxDelay : Duration := .second

/-- `saturating_pow` of a `u32`. -/
def saturatingPow (base exponent : ℕ) : ℕ :=
  if base ^ exponent < 2 ^ 32 then base ^ exponent else 2 ^ 32 - 1

def retryDelay (attempt : ℕ) : Duration :=
  (pushRetryBaseDelay.saturatingMul (saturatingPow 2 attempt)).min pushRetryMaxDelay

def isRetryableStatusCode (status : ℕ) : Bool :=
  (500 ≤ status && status ≤ 599) || status == 429

def isSuccess (status : ℕ) : Bool := 200 ≤ status && status < 300

/-- The end of one attempt, with the two messages of the method that makes it. -/
def attemptOnce (text : ℕ → String) (failed returned : String) :
    HttpAnswer → Except PushAttemptError Unit
  | .failed => .error { error := ⟨.pushGateway, failed⟩, retryable := true }
  | .status code =>
    if isSuccess code then .ok ()
    else .error
      { error := ⟨.pushGateway, returned ++ text code⟩, retryable := isRetryableStatusCode code }

def pushOnce (text : ℕ → String) : HttpAnswer → Except PushAttemptError Unit :=
  attemptOnce text "failed to send Pushgateway request" "Pushgateway returned "

def deleteOnce (text : ℕ → String) : HttpAnswer → Except PushAttemptError Unit :=
  attemptOnce text "failed to send Pushgateway delete request" "Pushgateway delete returned "

namespace PushGateway

variable {Url : Type} (gateway : PushGateway Url)

def pushRequest (body : String) : HttpRequest Url where
  method := .put
  url := gateway.url
  headers := [("content-type", "text/plain; version=0.0.4; charset=utf-8")]
  body := some body

def deleteRequest : HttpRequest Url where
  method := .delete
  url := gateway.url
  headers := []
  body := none

/-- The loop over the attempts `0..=retries`; the end of the range is the `unreachable!` after
it. -/
def retryLoop (request : HttpRequest Url) (once : ℕ → Except PushAttemptError Unit)
    (message : String) : List ℕ → PushRun Url
  | [] => { events := [], outcome := .unreachable message }
  | attempt :: attempts =>
    match once attempt with
    | .ok () => { events := [.request request], outcome := .returned (.ok ()) }
    | .error err =>
      if err.retryable && attempt < gateway.retries then
        let run := retryLoop request once message attempts
        { run with events := .request request :: .sleep (retryDelay attempt) :: run.events }
      else { events := [.request request], outcome := .returned (.error err.error) }

def pushBody (text : ℕ → String) (body : String) (answer : ℕ → HttpAnswer) : PushRun Url :=
  gateway.retryLoop (gateway.pushRequest body) (fun attempt => pushOnce text (answer attempt))
    "push retry loop always returns" (List.range (gateway.retries + 1))

def delete (text : ℕ → String) (answer : ℕ → HttpAnswer) : PushRun Url :=
  gateway.retryLoop gateway.deleteRequest (fun attempt => deleteOnce text (answer attempt))
    "delete retry loop always returns" (List.range (gateway.retries + 1))

end PushGateway

/-- An outcome after which the loop goes on while it has retries left. -/
def mayRetry : Except PushAttemptError Unit → Bool
  | .ok _ => false
  | .error err => err.retryable

namespace PushEvent

variable {Url : Type}

def isRequest : PushEvent Url → Bool
  | .request _ => true
  | .sleep _ => false

/-- The events of the loop read off those of a bounded retry. -/
def ofRetry (request : HttpRequest Url) : BoundedRetry.Event → PushEvent Url
  | .attempt => .request request
  | .pause index => .sleep (retryDelay index)

theorem isRequest_ofRetry (request : HttpRequest Url) (event : BoundedRetry.Event) :
    (ofRetry request event).isRequest = (event == .attempt) := by
  cases event with
  | attempt => rfl
  | pause index => rfl

end PushEvent

namespace PushEnd

def ofRetry (message : String) : Option (Except PushAttemptError Unit) → PushEnd
  | some result => .returned (result.mapError PushAttemptError.error)
  | none => .unreachable message

end PushEnd

/-- One request and one sleep for every retry, then the last request, whose outcome is returned.
The last one is the first that succeeds or may not be retried, unless the retries run out. -/
def Retried {Url : Type} (request : HttpRequest Url) (once : ℕ → Except PushAttemptError Unit)
    (retries : ℕ) (run : PushRun Url) : Prop :=
  ∃ last : ℕ, (last : ℕ∞) = min (BoundedRetry.firstFinal mayRetry once) retries ∧
    run.events.countP PushEvent.isRequest = last + 1 ∧
    run.events = (List.range last).flatMap
      (fun attempt => [.request request, .sleep (retryDelay attempt)]) ++ [.request request] ∧
    run.outcome = .returned ((once last).mapError PushAttemptError.error)

namespace PushGateway

variable {Url : Type} (gateway : PushGateway Url)

theorem retryLoop_eq (request : HttpRequest Url) (once : ℕ → Except PushAttemptError Unit)
    (message : String) (attempts : List ℕ) :
    gateway.retryLoop request once message attempts =
      { events := (BoundedRetry.runOver mayRetry once gateway.retries attempts).1.map
          (PushEvent.ofRetry request)
        outcome := .ofRetry message
          (BoundedRetry.runOver mayRetry once gateway.retries attempts).2 } := by
  induction attempts with
  | nil => rfl
  | cons attempt attempts ih =>
    rw [retryLoop, BoundedRetry.runOver]
    cases h : once attempt with
    | ok value => rfl
    | error err =>
      by_cases hgo : (err.retryable && decide (attempt < gateway.retries)) = true
      · simp only [mayRetry, hgo, if_true, ih, List.map_cons, PushEvent.ofRetry]
      · simp only [mayRetry, hgo]
        rfl

theorem map_trace (request : HttpRequest Url) (last : ℕ) :
    (BoundedRetry.trace last).map (PushEvent.ofRetry request) =
      (List.range last).flatMap
        (fun attempt => [.request request, .sleep (retryDelay attempt)]) ++
        [.request request] := by
  rw [BoundedRetry.trace, List.map_append, List.map_flatMap]
  rfl

theorem countP_map_trace (request : HttpRequest Url) (last : ℕ) :
    ((BoundedRetry.trace last).map (PushEvent.ofRetry request)).countP PushEvent.isRequest =
      last + 1 := by
  rw [List.countP_map, ← BoundedRetry.count_attempt_trace last, List.count]
  apply List.countP_congr
  intro event _
  rw [Function.comp_apply, PushEvent.isRequest_ofRetry]

/-- The loop over all attempts ends inside its range. -/
theorem retried_retryLoop (request : HttpRequest Url)
    (once : ℕ → Except PushAttemptError Unit) (message : String) :
    Retried request once gateway.retries
      (gateway.retryLoop request once message (List.range (gateway.retries + 1))) := by
  have hrun := BoundedRetry.run_eq mayRetry once gateway.retries
  rw [BoundedRetry.run] at hrun
  rw [retryLoop_eq, hrun]
  exact ⟨_, BoundedRetry.lastAttempt_eq_min mayRetry once gateway.retries,
    countP_map_trace request _, map_trace request _, rfl⟩

end PushGateway

theorem saturatingPow_eq_min (base exponent : ℕ) :
    saturatingPow base exponent = min (base ^ exponent) (2 ^ 32 - 1) := by
  rw [saturatingPow]
  by_cases h : base ^ exponent < 2 ^ 32
  · rw [if_pos h]
    omega
  · rw [if_neg h]
    omega

/-- Both saturations lie above the maximal delay. -/
theorem asNanos_retryDelay (attempt : ℕ) :
    (retryDelay attempt).asNanos = min (10 ^ 8 * 2 ^ attempt) (10 ^ 9) := by
  have hbase : pushRetryBaseDelay.asNanos = 10 ^ 8 := rfl
  have hmax : pushRetryMaxDelay.asNanos = 10 ^ 9 := rfl
  have hgreatest : Duration.max.asNanos = 2 ^ 64 * 10 ^ 9 - 1 := rfl
  rw [retryDelay, Duration.asNanos_min, Duration.asNanos_saturatingMul, saturatingPow_eq_min,
    hbase, hmax, hgreatest]
  omega

theorem retryDelay_mono {earlier later : ℕ} (h : earlier ≤ later) :
    (retryDelay earlier).asNanos ≤ (retryDelay later).asNanos := by
  have hpow : 2 ^ earlier ≤ 2 ^ later := Nat.pow_le_pow_right (by decide) h
  rw [asNanos_retryDelay, asNanos_retryDelay]
  omega

theorem push_and_delete_retry {Url : Type} (gateway : PushGateway Url) (text : ℕ → String)
    (body : String) (answer : ℕ → HttpAnswer) :
    Retried (gateway.pushRequest body) (fun attempt => pushOnce text (answer attempt))
        gateway.retries (gateway.pushBody text body answer) ∧
      Retried gateway.deleteRequest (fun attempt => deleteOnce text (answer attempt))
        gateway.retries (gateway.delete text answer) ∧
      (∀ attempt,
        (retryDelay attempt).asNanos =
          min (pushRetryBaseDelay.asNanos * 2 ^ attempt) pushRetryMaxDelay.asNanos) ∧
      (∀ attempt, 0 < (retryDelay attempt).asNanos) ∧
      (∀ earlier later, earlier ≤ later →
        (retryDelay earlier).asNanos ≤ (retryDelay later).asNanos) ∧
      (∀ attempt, (retryDelay attempt).asNanos ≤ pushRetryMaxDelay.asNanos) := by
  have hmax : pushRetryMaxDelay.asNanos = 10 ^ 9 := rfl
  refine ⟨gateway.retried_retryLoop _ _ _, gateway.retried_retryLoop _ _ _, asNanos_retryDelay,
    fun attempt => ?_, fun _ _ h => retryDelay_mono h, fun attempt => ?_⟩
  · have hpow : 0 < 2 ^ attempt := Nat.pow_pos (by decide)
    rw [asNanos_retryDelay]
    omega
  · rw [asNanos_retryDelay, hmax]
    omega

end Iperf3Rs
