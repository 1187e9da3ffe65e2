import Iperf3Rs.Clock
import Iperf3Rs.EventLoop
import Mathlib.Data.List.TakeWhile

/-! `RunningIperf`, which observes the end of a run on a worker thread. What the thread ends with
is `outcome`, and none is a panic. -/

namespace Iperf3Rs

/-- `handle` is whether the thread has not been joined yet. -/
structure RunningIperf where
  handle : Bool
  deriving DecidableEq

variable {R : Type}

namespace RunningIperf

def isFinished (finished : Bool) (running : RunningIperf) : Bool :=
  if running.handle then finished else true

def takeHandle (running : RunningIperf) : Except Error RunningIperf :=
  if running.handle then .ok ⟨false⟩
  else .error ⟨.worker, "iperf worker result was already observed"⟩

/-- What `join` makes of the end of the thread. -/
def joined (outcome : Option (Except Error R)) : Except Error R :=
  outcome.getD (.error ⟨.worker, "iperf worker thread panicked"⟩)

def takeFinishedResult (outcome : Option (Except Error R)) (running : RunningIperf) :
    Except Error R × RunningIperf :=
  match running.takeHandle with
  | .error e => (.error e, running)
  | .ok running => (joined outcome, running)

def tryWait (outcome : Option (Except Error R)) (finished : Bool) (running : RunningIperf) :
    Except Error (Option R) × RunningIperf :=
  if !running.isFinished finished then (.ok none, running)
  else
    let (result, running) := running.takeFinishedResult outcome
    (result.map some, running)

end RunningIperf

/-- What one iteration of `wait_timeout` sees: whether the thread has finished, the clock when it
is compared with the deadline, and the clock before the sleep. -/
structure Poll where
  finished : Bool
  now : ℕ
  again : ℕ

def pollInterval : ℕ := 10 ^ 7

/-- When the sleep is over, at the earliest. -/
def Poll.wakes (deadline : ℕ) (poll : Poll) : ℕ :=
  poll.again + min pollInterval (deadline - poll.again)

namespace RunningIperf

/-- An iteration of the loop, on the handle and what is returned. -/
def waitIteration (outcome : Option (Except Error R)) (timeout : Duration) (deadline : ℕ)
    (poll : Poll) (s : RunningIperf × Option R) : Flow Error (RunningIperf × Option R) :=
  if s.1.isFinished poll.finished then
    match s.1.takeFinishedResult outcome with
    | (.error e, running) => .fail e (running, none)
    | (.ok result, running) => .stop (running, some result)
  else if timeout.isZero || deadline ≤ poll.now then .stop (s.1, none)
  else .next s

def waitEnd : LoopRun Error (RunningIperf × Option R) →
    Option (Except Error (Option R)) × RunningIperf
  | .running s => (none, s.1)
  | .returned result s => (some (result.map fun _ => s.2), s.1)

def waitTimeout (outcome : Option (Except Error R)) (limit start : ℕ) (timeout : Duration)
    (polls : List Poll) (running : RunningIperf) :
    Option (Except Error (Option R)) × RunningIperf :=
  match checkedDeadline limit start timeout with
  | .error e => (some (.error e), running)
  | .ok deadline =>
    waitEnd (runLoop (waitIteration outcome timeout deadline) (fun _ s => s) polls (running, none))

end RunningIperf

def deadlineError : Error := .invalidArgument "duration exceeds runtime deadline range"

def observedError : Error := ⟨.worker, "iperf worker result was already observed"⟩

/-- No sleep ends early, and the clock does not go back. -/
def Clocked (deadline : ℕ) : ℕ → List Poll → Prop
  | _, [] => True
  | earliest, poll :: polls =>
    earliest ≤ poll.now ∧ poll.now ≤ poll.again ∧ Clocked deadline (poll.wakes deadline) polls

section Wait

variable {outcome : Option (Except Error R)} {timeout : Duration} {limit start deadline : ℕ}

def Poll.goesOn (timeout : Duration) (deadline : ℕ) (poll : Poll) : Bool :=
  !poll.finished && !(timeout.isZero || deadline ≤ poll.now)

theorem wakes_le {earliest : ℕ} {poll : Poll} (hnow : earliest ≤ poll.now)
    (hagain : poll.now ≤ poll.again) :
    min (earliest + pollInterval) deadline ≤ poll.wakes deadline := by
  rw [Poll.wakes]
  omega

/-- A sleep takes ten milliseconds of the time that is left, or all of it. -/
theorem goesOn_length {polls : List Poll} {earliest : ℕ}
    (hclock : Clocked deadline earliest polls)
    (hgo : ∀ poll ∈ polls, poll.goesOn timeout deadline = true) (hne : polls ≠ []) :
    polls.length * pollInterval + earliest < deadline + pollInterval := by
  induction polls generalizing earliest with
  | nil => exact absurd rfl hne
  | cons poll polls ih =>
    obtain ⟨hnow, hagain, hrest⟩ := hclock
    have hfirst := hgo poll List.mem_cons_self
    simp only [Poll.goesOn, Bool.and_eq_true, Bool.not_eq_true', Bool.or_eq_false_iff,
      decide_eq_false_iff_not, Nat.not_le] at hfirst
    have hwakes := @wakes_le deadline _ _ hnow hagain
    by_cases hempty : polls = []
    · subst hempty
      simp only [List.length_cons, List.length_nil]
      omega
    · have hlater := ih hrest (fun p hp => hgo p (List.mem_cons_of_mem _ hp)) hempty
      have hpositive : 0 < polls.length := List.length_pos_of_ne_nil hempty
      have hone : pollInterval ≤ polls.length * pollInterval := Nat.le_mul_of_pos_left _ hpositive
      simp only [List.length_cons, Nat.add_mul, Nat.one_mul]
      omega

theorem checkedDeadline_error {e : Error}
    (h : checkedDeadline limit start timeout = .error e) : e = deadlineError := by
  rw [checkedDeadline] at h
  split at h
  · cases h
  · cases h
    rfl

theorem waitTimeout_invalid {e : Error}
    (h : checkedDeadline limit start timeout = .error e) (polls : List Poll)
    (running : RunningIperf) : running.waitTimeout outcome limit start timeout polls =
      (some (.error deadlineError), running) := by
  rw [RunningIperf.waitTimeout, h, checkedDeadline_error h]

theorem waitTimeout_eq (hdeadline : checkedDeadline limit start timeout = .ok deadline)
    (polls : List Poll) : RunningIperf.waitTimeout outcome limit start timeout polls ⟨true⟩ =
      match polls.dropWhile (·.goesOn timeout deadline) with
      | [] => (none, ⟨true⟩)
      | last :: _ =>
        if last.finished then (some ((RunningIperf.joined outcome).map some), ⟨false⟩)
        else (some (.ok none), ⟨true⟩) := by
  obtain ⟨-, hrun⟩ := runLoop_takeWhile
    (RunningIperf.waitIteration outcome timeout deadline) (fun _ s => s)
    (·.goesOn timeout deadline) (fun s _ => s)
    (fun s => s = ((⟨true⟩ : RunningIperf), (none : Option R))) (fun poll s hs hgo => by
      simp only [Poll.goesOn, Bool.and_eq_true, Bool.not_eq_true'] at hgo
      subst hs
      simp [RunningIperf.waitIteration, RunningIperf.isFinished, hgo.1, hgo.2]) polls rfl
  have hfold : ∀ front : List Poll, front.foldl (fun s _ => s)
      ((⟨true⟩ : RunningIperf), (none : Option R)) = (⟨true⟩, none) := by
    intro front
    induction front with
    | nil => rfl
    | cons poll front ih => exact ih
  rw [RunningIperf.waitTimeout, hdeadline]
  simp only [hrun, hfold]
  cases hrest : polls.dropWhile (·.goesOn timeout deadline) with
  | nil => rfl
  | cons last later =>
    have hstop := List.head?_dropWhile_not (·.goesOn timeout deadline) polls
    rw [hrest] at hstop
    simp only [List.head?_cons, Poll.goesOn, Bool.and_eq_false_iff, Bool.not_eq_false'] at hstop
    by_cases hfinished : last.finished = true
    · cases hjoined : RunningIperf.joined outcome <;>
        simp [runLoop, RunningIperf.waitIteration, RunningIperf.isFinished, hfinished,
          RunningIperf.takeFinishedResult, RunningIperf.takeHandle, hjoined,
          RunningIperf.waitEnd, Except.map]
    · have hover := hstop.resolve_left hfinished
      simp [runLoop, RunningIperf.waitIteration, RunningIperf.isFinished, hfinished, hover,
        RunningIperf.waitEnd, Except.map]

theorem waitTimeout_polls (hdeadline : checkedDeadline limit start timeout = .ok deadline)
    {polls : List Poll} (hclock : Clocked deadline start polls) :
    (timeout.asNanos / pollInterval + 2 ≤ polls.length →
      (RunningIperf.waitTimeout outcome limit start timeout polls ⟨true⟩).1.isSome = true) ∧
    ∀ reply after,
      RunningIperf.waitTimeout outcome limit start timeout polls ⟨true⟩ = (some reply, after) →
      ∃ front last later, polls = front ++ last :: later ∧
        (∀ poll ∈ front, poll.finished = false ∧ timeout.isZero = false ∧
          poll.now < start + timeout.asNanos) ∧
        ((last.finished = true ∧ reply = (RunningIperf.joined outcome).map some ∧
            after = ⟨false⟩) ∨
          (last.finished = false ∧
            (timeout.isZero = true ∨ start + timeout.asNanos ≤ last.now) ∧
            reply = .ok none ∧ after = ⟨true⟩)) := by
  have hbound : deadline = start + timeout.asNanos := by
    rw [checkedDeadline] at hdeadline
    split at hdeadline
    · next hadd =>
      cases hdeadline
      rw [Instant.checkedAdd] at hadd
      split at hadd
      · exact (Option.some.inj hadd).symm
      · cases hadd
    · cases hdeadline
  rw [waitTimeout_eq hdeadline]
  have hwhole : polls.takeWhile (·.goesOn timeout deadline) ++
      polls.dropWhile (·.goesOn timeout deadline) = polls := List.takeWhile_append_dropWhile
  constructor
  · intro hlength
    cases hrest : polls.dropWhile (·.goesOn timeout deadline) with
    | cons last later =>
      simp only
      split <;> rfl
    | nil =>
      exfalso
      rw [hrest, List.append_nil] at hwhole
      have hgo : ∀ poll ∈ polls, poll.goesOn timeout deadline = true := by
        intro poll hpoll
        rw [← hwhole] at hpoll
        exact List.mem_takeWhile_imp hpoll
      have hne : polls ≠ [] := by
        intro hempty
        rw [hempty] at hlength
        exact absurd hlength (Nat.not_succ_le_zero _)
      have hspan := goesOn_length hclock hgo hne
      have hdiv := Nat.div_add_mod timeout.asNanos pollInterval
      have hmod := Nat.mod_lt timeout.asNanos (by decide : 0 < pollInterval)
      have hmul := Nat.mul_le_mul_right pollInterval hlength
      rw [Nat.add_mul, Nat.mul_comm (timeout.asNanos / pollInterval)] at hmul
      omega
  · intro reply after h
    cases hrest : polls.dropWhile (·.goesOn timeout deadline) with
    | nil =>
      rw [hrest] at h
      cases h
    | cons last later =>
      rw [hrest] at h hwhole
      refine ⟨_, last, later, hwhole.symm, fun poll hpoll => ?_, ?_⟩
      · have hgo := List.mem_takeWhile_imp hpoll
        simp only [Poll.goesOn, Bool.and_eq_true, Bool.not_eq_true', Bool.or_eq_false_iff,
          decide_eq_false_iff_not, Nat.not_le] at hgo
        exact ⟨hgo.1, hgo.2.1, hbound ▸ hgo.2.2⟩
      · have hstop := List.head?_dropWhile_not (·.goesOn timeout deadline) polls
        rw [hrest] at hstop
        by_cases hfinished : last.finished = true
        · simp only [hfinished, if_true, Prod.mk.injEq, Option.some.injEq] at h
          exact .inl ⟨hfinished, h.1.symm, h.2.symm⟩
        · rw [Bool.not_eq_true] at hfinished
          simp only [hfinished, Bool.false_eq_true, if_false, Prod.mk.injEq,
            Option.some.injEq] at h
          simp only [List.head?_cons, Poll.goesOn, hfinished, Bool.not_false, Bool.true_and,
            Bool.not_eq_false', Bool.or_eq_true, decide_eq_true_eq] at hstop
          exact .inr ⟨hfinished, hbound ▸ hstop, h.1.symm, h.2.symm⟩

/-- `wait_timeout` refuses a timeout whose deadline cannot be represented. Otherwise it comes back
after at most as many sleeps as the timeout has ten milliseconds, with the end of the run if it sees
one, and empty-handed only when the timeout is over. -/
theorem wait_timeout (outcome : Option (Except Error R)) (limit start : ℕ) (timeout : Duration) :
    (limit < start + timeout.asNanos → ∀ polls,
      RunningIperf.waitTimeout outcome limit start timeout polls ⟨true⟩ =
        (some (.error deadlineError), ⟨true⟩)) ∧
    (start + timeout.asNanos ≤ limit → ∀ polls, Clocked (start + timeout.asNanos) start polls →
      (timeout.asNanos / pollInterval + 2 ≤ polls.length →
        (RunningIperf.waitTimeout outcome limit start timeout polls ⟨true⟩).1.isSome = true) ∧
      ∀ reply after,
        RunningIperf.waitTimeout outcome limit start timeout polls ⟨true⟩ = (some reply, after) →
        ∃ front last later, polls = front ++ last :: later ∧
          (∀ poll ∈ front, poll.finished = false ∧ timeout.isZero = false ∧
            poll.now < start + timeout.asNanos) ∧
          ((last.finished = true ∧ reply = (RunningIperf.joined outcome).map some ∧
              after = ⟨false⟩) ∨
            (last.finished = false ∧
              (timeout.isZero = true ∨ start + timeout.asNanos ≤ last.now) ∧
              reply = .ok none ∧ after = ⟨true⟩))) := by
  refine ⟨fun hover polls => ?_, fun hfits polls hclock => ?_⟩
  · refine waitTimeout_invalid (e := deadlineError) ?_ polls _
    rw [checkedDeadline, Instant.checkedAdd, if_neg (Nat.not_le.mpr hover)]
    rfl
  · refine waitTimeout_polls ?_ hclock
    rw [checkedDeadline, Instant.checkedAdd, if_pos hfits]

def fifteenMillis : Duration := ⟨0, 15 * 10 ^ 6, by decide, by decide⟩

theorem wait_timeout_expires : RunningIperf.waitTimeout (R := Unit) none (10 ^ 12) 5 fifteenMillis
    [⟨false, 6, 7⟩, ⟨false, 10000007, 10000009⟩, ⟨false, 15000005, 15000006⟩] ⟨true⟩ =
      (some (.ok none), ⟨true⟩) := by
  have hclock : Clocked (5 + fifteenMillis.asNanos) 5
      [⟨false, 6, 7⟩, ⟨false, 10000007, 10000009⟩, ⟨false, 15000005, 15000006⟩] :=
    ⟨by decide, by decide, by decide, by decide, by decide, by decide, trivial⟩
  obtain ⟨hreturns, hreply⟩ :=
    (wait_timeout (R := Unit) none (10 ^ 12) 5 fifteenMillis).2 (by decide) _ hclock
  obtain ⟨reply, hsome⟩ := Option.isSome_iff_exists.mp (hreturns (by decide))
  obtain ⟨front, last, later, hpolls, -, hfinished | ⟨-, -, rfl, hafter⟩⟩ :=
    hreply reply _ (Prod.ext hsome rfl)
  · have hlast : last ∈ [⟨false, 6, 7⟩, ⟨false, 10000007, 10000009⟩,
        (⟨false, 15000005, 15000006⟩ : Poll)] := by
      rw [hpolls]
      simp
    simp only [List.mem_cons, List.not_mem_nil, or_false] at hlast
    rcases hlast with rfl | rfl | rfl <;> cases hfinished.1
  · exact Prod.ext hsome hafter

end Wait

/-- What an application asks of the handle while the run may be going on. -/
inductive WaitCall where
  | tryWait (finished : Bool)
  | waitTimeout (limit start : ℕ) (timeout : Duration) (polls : List Poll)

section Calls

variable (outcome : Option (Except Error R))

def WaitCall.reply (running : RunningIperf) :
    WaitCall → Option (Except Error (Option R)) × RunningIperf
  | .tryWait finished =>
    let (result, running) := running.tryWait outcome finished
    (some result, running)
  | .waitTimeout limit start timeout polls =>
    running.waitTimeout outcome limit start timeout polls

/-- The replies of one call after the other. The call that does not come back is the last. -/
def waitCalls : List WaitCall → RunningIperf → List (Except Error (Option R)) × RunningIperf
  | [], running => ([], running)
  | call :: calls, running =>
    match call.reply outcome running with
    | (none, running) => ([], running)
    | (some reply, running) =>
      let (replies, running) := waitCalls calls running
      (reply :: replies, running)

/-- `wait`, which takes the handle itself. -/
def RunningIperf.wait (running : RunningIperf) : Except Error R :=
  (running.takeFinishedResult outcome).1

variable {outcome}

/-- A reply that leaves the end of the run to a later call. -/
def Pending (reply : Except Error (Option R)) : Prop :=
  reply = .ok none ∨ reply = .error deadlineError

/-- A reply after the end of the run has been handed out. -/
def Spent (reply : Except Error (Option R)) : Prop :=
  reply = .error observedError ∨ reply = .error deadlineError

theorem reply_open (call : WaitCall) :
    ((call.reply outcome ⟨true⟩).1 = none ∧ (call.reply outcome ⟨true⟩).2 = ⟨true⟩) ∨
    (∃ reply, call.reply outcome ⟨true⟩ = (some reply, ⟨true⟩) ∧ Pending reply) ∨
    call.reply outcome ⟨true⟩ = (some ((RunningIperf.joined outcome).map some), ⟨false⟩) := by
  cases call with
  | tryWait finished =>
    cases finished with
    | false => exact .inr (.inl ⟨.ok none, rfl, .inl rfl⟩)
    | true => exact .inr (.inr rfl)
  | waitTimeout limit start timeout polls =>
    simp only [WaitCall.reply]
    cases hdeadline : checkedDeadline limit start timeout with
    | error e =>
      exact .inr (.inl ⟨_, waitTimeout_invalid hdeadline polls ⟨true⟩, .inr rfl⟩)
    | ok deadline =>
      rw [waitTimeout_eq hdeadline]
      cases polls.dropWhile (·.goesOn timeout deadline) with
      | nil => exact .inl ⟨rfl, rfl⟩
      | cons last later =>
        by_cases hfinished : last.finished = true
        · exact .inr (.inr (by simp [hfinished]))
        · exact .inr (.inl ⟨.ok none, by simp [hfinished], .inl rfl⟩)

theorem reply_spent (call : WaitCall) : (call.reply outcome ⟨false⟩).2 = ⟨false⟩ ∧
    ∀ reply, (call.reply outcome ⟨false⟩).1 = some reply → Spent reply := by
  cases call with
  | tryWait finished =>
    refine ⟨rfl, fun reply h => ?_⟩
    cases h
    exact .inl rfl
  | waitTimeout limit start timeout polls =>
    simp only [WaitCall.reply]
    cases hdeadline : checkedDeadline limit start timeout with
    | error e =>
      rw [waitTimeout_invalid hdeadline]
      refine ⟨rfl, fun reply h => ?_⟩
      cases h
      exact .inr rfl
    | ok deadline =>
      rw [RunningIperf.waitTimeout, hdeadline]
      cases polls with
      | nil => exact ⟨rfl, nofun⟩
      | cons poll polls =>
        refine ⟨rfl, fun reply h => ?_⟩
        cases h
        exact .inl rfl

theorem waitCalls_spent (calls : List WaitCall) : (waitCalls outcome calls ⟨false⟩).2 = ⟨false⟩ ∧
    ∀ reply ∈ (waitCalls outcome calls ⟨false⟩).1, Spent reply := by
  induction calls with
  | nil => exact ⟨rfl, nofun⟩
  | cons call calls ih =>
    obtain ⟨hstate, hspent⟩ := @reply_spent R outcome call
    rw [waitCalls]
    cases hreply : call.reply outcome ⟨false⟩ with
    | mk reply running =>
      rw [hreply] at hstate hspent
      obtain rfl : running = ⟨false⟩ := hstate
      cases reply with
      | none => exact ⟨rfl, nofun⟩
      | some reply =>
        refine ⟨ih.1, fun other hother => ?_⟩
        rcases List.mem_cons.mp hother with rfl | hother
        · exact hspent _ rfl
        · exact ih.2 other hother

/-- The end of a run is handed out exactly once, whatever is called before and whenever the run
ends: earlier calls come back empty-handed, later ones with an error, and `wait` at last returns
what no call has. -/
theorem waitCalls_once (outcome : Option (Except Error R)) (calls : List WaitCall) :
    let replies := (waitCalls outcome calls ⟨true⟩).1
    let last := (waitCalls outcome calls ⟨true⟩).2.wait outcome
    ((∀ reply ∈ replies, Pending reply) ∧ last = RunningIperf.joined outcome) ∨
      ∃ before after, replies = before ++ (RunningIperf.joined outcome).map some :: after ∧
        (∀ reply ∈ before, Pending reply) ∧ (∀ reply ∈ after, Spent reply) ∧
        last = .error observedError := by
  induction calls with
  | nil => exact .inl ⟨nofun, rfl⟩
  | cons call calls ih =>
    simp only [waitCalls]
    rcases @reply_open R outcome call with ⟨hnone, hstate⟩ | ⟨reply, hreply, hpending⟩ | hreply
    · cases hcall : call.reply outcome ⟨true⟩ with
      | mk reply running =>
        rw [hcall] at hnone hstate
        obtain rfl : reply = none := hnone
        obtain rfl : running = ⟨true⟩ := hstate
        exact .inl ⟨nofun, rfl⟩
    · simp only [hreply]
      rcases ih with ⟨hall, hlast⟩ | ⟨before, after, hreplies, hbefore, hafter, hlast⟩
      · refine .inl ⟨fun other hother => ?_, hlast⟩
        rcases List.mem_cons.mp hother with rfl | hother
        · exact hpending
        · exact hall other hother
      · refine .inr ⟨reply :: before, after, by rw [hreplies]; rfl, fun other hother => ?_,
          hafter, hlast⟩
        rcases List.mem_cons.mp hother with rfl | hother
        · exact hpending
        · exact hbefore other hother
    · obtain ⟨hstate, hspent⟩ := @waitCalls_spent R outcome calls
      simp only [hreply]
      refine .inr ⟨[], _, rfl, nofun, hspent, ?_⟩
      rw [hstate]
      rfl

end Calls

end Iperf3Rs
