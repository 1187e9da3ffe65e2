import Mathlib.Algebra.Group.Nat.Defs
import Mathlib.Data.Finset.Basic
import Mathlib.Data.Finset.Card
import Mathlib.Logic.Relation

/-! The signal part of the CLI runtime: `iperf3rs_cli_prepare`, `iperf3rs_cli_select` and
`iperf3rs_cli_cleanup` on the main thread, and any number of activations of the handler
`iperf3rs_cli_signal`. Every access to a shared variable and every system call is one step, and
the steps interleave in any order. A descriptor variable that holds -1 is `none`. -/

namespace Iperf3Rs

namespace CliRuntime

inductive Signal where
  | int
  | term
  | hup
  deriving DecidableEq

def Signal.number : Signal → ℕ
  | .int => 2
  | .term => 15
  | .hup => 1

def cliSignals : List Signal := [.int, .term, .hup]

/-- Where an activation of `iperf3rs_cli_signal` is. -/
inductive HandlerPc where
  | entered
  | counted
  | signalled
  | loaded (fd : Option ℕ)
  | written
  | returned
  deriving DecidableEq

structure Activation where
  signal : Signal
  pc : HandlerPc
  deriving DecidableEq

/-- The static variables of the runtime, then what the kernel knows: which signals have the
handler of the runtime, the bytes in the wake pipe, and its write end as long as it is open. -/
structure Globals where
  signal : ℕ
  writefd : Option ℕ
  handlers : UInt32
  readfd : Option ℕ
  handled : Signal → Bool
  buffered : ℕ
  writeEnd : Option ℕ

/-- A full pipe takes no byte from a writer that does not block. A descriptor that is not the
open write end is not that of the pipe. -/
def Globals.write (capacity : ℕ) (g : Globals) (fd : ℕ) : Globals :=
  if g.writeEnd = some fd ∧ g.buffered < capacity then { g with buffered := g.buffered + 1 } else g

/-- `iperf3rs_cli_signal`. -/
def handlerStep (capacity : ℕ) (g : Globals) (a : Activation) : Option (Globals × Activation) :=
  match a.pc with
  | .entered => some ({ g with handlers := g.handlers + 1 }, { a with pc := .counted })
  | .counted => some ({ g with signal := a.signal.number }, { a with pc := .signalled })
  | .signalled => some (g, { a with pc := .loaded g.writefd })
  | .loaded (some fd) => some (g.write capacity fd, { a with pc := .written })
  | .loaded none => some (g, { a with pc := .written })
  | .written => some ({ g with handlers := g.handlers - 1 }, { a with pc := .returned })
  | .returned => none

inductive Errno where
  | eintr
  | other (code : ℕ)
  deriving DecidableEq

structure FdSets where
  read : Finset ℕ
  write : Finset ℕ
  except : Finset ℕ
  deriving DecidableEq

def FdSets.count (sets : FdSets) : ℕ := sets.read.card + sets.write.card + sets.except.card

/-- The arguments of a call of `select`. A set that is not given is empty. -/
structure SelectCall where
  nfds : Int
  sets : FdSets
  timeout : Option ℕ
  deriving DecidableEq

/-- What `select` returns, and the sets as it leaves them. -/
structure SelectReturn where
  result : Except Errno ℕ
  sets : FdSets
  deriving DecidableEq

/-- The call with the read end of the wake pipe in its read set, and `nfds` beyond it. -/
def SelectCall.watch (call : SelectCall) (fd : ℕ) : SelectCall where
  nfds := if call.nfds ≤ fd then fd + 1 else call.nfds
  sets := { call.sets with read := insert fd call.sets.read }
  timeout := call.timeout

def SelectReturn.clear (ret : SelectReturn) (fd : ℕ) : SelectReturn :=
  { ret with sets := { ret.sets with read := ret.sets.read.erase fd } }

def SelectCall.interrupted (call : SelectCall) : SelectReturn := ⟨.error .eintr, call.sets⟩

def SelectReturn.interrupted (ret : SelectReturn) : SelectReturn := ⟨.error .eintr, ret.sets⟩

/-- The wake pipe has made the call return. -/
def SelectCall.Woken (call : SelectCall) (g : Globals) (fd : ℕ) : Prop :=
  fd ∈ call.sets.read ∧ (fd : Int) < call.nfds ∧ 0 < g.buffered

/-- `select` reports descriptors that were asked for, and returns without any only at the end of
the timeout. The wake pipe counts as any other descriptor: its read end is reported in the read
set if there is a byte, and in no other set. -/
def SelectCall.Reports (call : SelectCall) (g : Globals) (ready : FdSets) : Prop :=
  ready.read ⊆ call.sets.read ∧ ready.write ⊆ call.sets.write ∧
    ready.except ⊆ call.sets.except ∧
    (∀ fd ∈ ready.read ∪ ready.write ∪ ready.except, (fd : Int) < call.nfds) ∧
    (∀ fd ∈ g.readfd, (fd ∈ ready.read ↔ fd ∈ call.sets.read ∧ (fd : Int) < call.nfds ∧
      0 < g.buffered) ∧ fd ∉ ready.write ∧ fd ∉ ready.except) ∧
    (ready.count = 0 → call.timeout.isSome = true)

instance (call : SelectCall) (g : Globals) (ready : FdSets) :
    Decidable (call.Reports g ready) :=
  inferInstanceAs (Decidable (_ ∧ _ ∧ _ ∧ _ ∧ _ ∧ _))

/-- The next step of the main thread. `restore` counts the dispositions that are still to be
restored. -/
inductive MainPc where
  | prepare
  | copyPidfile
  | pipe
  | fcntl (remaining : ℕ)
  | storeReadfd
  | storeWritefd
  | clearSignal
  | sigaction (index : ℕ)
  | createPidfile
  | running (last : Option SelectReturn)
  | selectCheck (call : SelectCall)
  | selectWait (call : SelectCall)
  | selectRecheck (ret : SelectReturn)
  | restore (count : ℕ)
  | retire
  | drain
  | forgetReadfd
  | resetSignal
  | closeRead
  | closeWrite
  | finished

/-- `struct iperf3rs_cli_state`, without the pidfile. -/
structure CliState where
  pipefd : Option ℕ × Option ℕ
  installed : ℕ

structure Runtime where
  globals : Globals
  state : CliState
  main : MainPc
  activations : List Activation

/-- How a step of the main thread turns out, and what it does when it has the choice. -/
inductive Outcome where
  | ok
  | fails (error : Errno)
  | pipe (readEnd writeEnd : ℕ)
  | select (call : SelectCall)
  | cleanup
  | ready (sets : FdSets)

def fdSetSize : ℕ := 1024

/-- The cleanup begins with the dispositions, if any are installed. -/
def restoreFrom (count : ℕ) : MainPc := if count = 0 then .retire else .restore count

def mainStep (g : Globals) (st : CliState) (pc : MainPc) (outcome : Outcome) :
    Option (Globals × CliState × MainPc) :=
  match pc, outcome with
  -- a runtime that is prepared already, a missing lock-free atomic, `daemon` or `calloc`
  | .prepare, .ok => if g.readfd.isSome then none else some (g, ⟨(none, none), 0⟩, .copyPidfile)
  | .prepare, .fails _ => some (g, st, .finished)
  | .copyPidfile, .ok => some (g, st, .pipe)
  | .pipe, .pipe readEnd writeEnd =>
    some ({ g with buffered := 0, writeEnd := some writeEnd },
      { st with pipefd := (some readEnd, some writeEnd) },
      if fdSetSize ≤ readEnd then restoreFrom st.installed else .fcntl 4)
  | .fcntl (remaining + 1), .ok =>
    some (g, st, if remaining = 0 then .storeReadfd else .fcntl remaining)
  | .storeReadfd, .ok => some ({ g with readfd := st.pipefd.1 }, st, .storeWritefd)
  | .storeWritefd, .ok => some ({ g with writefd := st.pipefd.2 }, st, .clearSignal)
  | .clearSignal, .ok => some ({ g with signal := 0 }, st, .sigaction 0)
  | .sigaction index, .ok =>
    match cliSignals[index]? with
    | none => none
    | some signal =>
      some ({ g with handled := Function.update g.handled signal true },
        { st with installed := st.installed + 1 },
        if index + 1 = 3 then .createPidfile else .sigaction (index + 1))
  | .createPidfile, .ok => some (g, st, .running none)
  | .copyPidfile, .fails _ | .pipe, .fails _ | .fcntl _, .fails _ | .sigaction _, .fails _
  | .createPidfile, .fails _ | .running _, .cleanup => some (g, st, restoreFrom st.installed)
  | .running _, .select call => some (g, st, .selectCheck call)
  | .selectCheck call, .ok =>
    match g.readfd with
    | none => some (g, st, .selectWait call)
    | some fd =>
      if g.signal ≠ 0 then some (g, st, .running (some call.interrupted))
      else some (g, st, .selectWait (call.watch fd))
  | .selectWait call, outcome =>
    let done (ret : SelectReturn) := match g.readfd with
      | none => some (g, st, .running (some ret))
      | some fd => some (g, st, .selectRecheck (ret.clear fd))
    match outcome with
    | .ready ready => if call.Reports g ready then done ⟨.ok ready.count, ready⟩ else none
    | .fails e => done ⟨.error e, call.sets⟩
    | _ => none
  | .selectRecheck ret, .ok =>
    some (g, st, .running (some (if g.signal ≠ 0 then ret.interrupted else ret)))
  | .restore (count + 1), outcome =>
    match cliSignals[count]?, outcome with
    | some signal, .ok =>
      some ({ g with handled := Function.update g.handled signal false }, st, restoreFrom count)
    | some _, .fails _ => some (g, st, restoreFrom count)
    | _, _ => none
  | .retire, .ok => some ({ g with writefd := none }, st, .drain)
  | .drain, .ok => some (g, st, if g.handlers ≠ 0 then .drain else .forgetReadfd)
  | .forgetReadfd, .ok => some ({ g with readfd := none }, st, .resetSignal)
  | .resetSignal, .ok => some ({ g with signal := 0 }, st, .closeRead)
  | .closeRead, .ok => some (g, st, .closeWrite)
  | .closeWrite, .ok =>
    some (if st.pipefd.2.isSome then { g with writeEnd := none } else g, st, .finished)
  | _, _ => none

inductive MainSteps (g : Globals) (st : CliState) :
    MainPc → Outcome → Globals → CliState → MainPc → Prop
  | began (hreadfd : g.readfd = none) :
      MainSteps g st .prepare .ok g ⟨(none, none), 0⟩ .copyPidfile
  | refused (e : Errno) : MainSteps g st .prepare (.fails e) g st .finished
  | copied : MainSteps g st .copyPidfile .ok g st .pipe
  | piped (readEnd writeEnd : ℕ) (pc : MainPc)
      (hpc : pc = .fcntl 4 ∨ pc = restoreFrom st.installed) :
      MainSteps g st .pipe (.pipe readEnd writeEnd)
        { g with buffered := 0, writeEnd := some writeEnd }
        { st with pipefd := (some readEnd, some writeEnd) } pc
  | configured (remaining : ℕ) (pc : MainPc) (hpc : pc = .storeReadfd ∨ pc = .fcntl remaining) :
      MainSteps g st (.fcntl (remaining + 1)) .ok g st pc
  | storedReadfd : MainSteps g st .storeReadfd .ok { g with readfd := st.pipefd.1 } st .storeWritefd
  | storedWritefd :
      MainSteps g st .storeWritefd .ok { g with writefd := st.pipefd.2 } st .clearSignal
  | clearedSignal : MainSteps g st .clearSignal .ok { g with signal := 0 } st (.sigaction 0)
  | installed (index : ℕ) (signal : Signal) (pc : MainPc)
      (hpc : pc = .createPidfile ∨ pc = .sigaction (index + 1)) :
      MainSteps g st (.sigaction index) .ok
        { g with handled := Function.update g.handled signal true }
        { st with installed := st.installed + 1 } pc
  | prepared : MainSteps g st .createPidfile .ok g st (.running none)
  | abandoned (pc : MainPc) (outcome : Outcome)
      (hpc : pc = .copyPidfile ∨ pc = .pipe ∨ (∃ n, pc = .fcntl n) ∨ (∃ n, pc = .sigaction n) ∨
        pc = .createPidfile ∨ ∃ last, pc = .running last) :
      MainSteps g st pc outcome g st (restoreFrom st.installed)
  | selecting (last : Option SelectReturn) (call : SelectCall) :
      MainSteps g st (.running last) (.select call) g st (.selectCheck call)
  | plain (call : SelectCall) (hreadfd : g.readfd = none) :
      MainSteps g st (.selectCheck call) .ok g st (.selectWait call)
  | interrupted (call : SelectCall) (hsignal : g.signal ≠ 0) :
      MainSteps g st (.selectCheck call) .ok g st (.running (some call.interrupted))
  | waiting (call : SelectCall) (fd : ℕ) (hreadfd : g.readfd = some fd) (hsignal : g.signal = 0) :
      MainSteps g st (.selectCheck call) .ok g st (.selectWait (call.watch fd))
  | plainReady (call : SelectCall) (outcome : Outcome) (ret : SelectReturn)
      (hreadfd : g.readfd = none) :
      MainSteps g st (.selectWait call) outcome g st (.running (some ret))
  | ready (call : SelectCall) (ready : FdSets) (fd : ℕ) (hreadfd : g.readfd = some fd)
      (hready : call.Reports g ready) :
      MainSteps g st (.selectWait call) (.ready ready) g st
        (.selectRecheck (SelectReturn.clear ⟨.ok ready.count, ready⟩ fd))
  | failed (call : SelectCall) (e : Errno) (fd : ℕ) (hreadfd : g.readfd = some fd) :
      MainSteps g st (.selectWait call) (.fails e) g st
        (.selectRecheck (SelectReturn.clear ⟨.error e, call.sets⟩ fd))
  | rechecked (ret : SelectReturn) :
      MainSteps g st (.selectRecheck ret) .ok g st
        (.running (some (if g.signal ≠ 0 then ret.interrupted else ret)))
  | restored (count : ℕ) (outcome : Outcome) (handled : Signal → Bool) :
      MainSteps g st (.restore (count + 1)) outcome { g with handled := handled } st
        (restoreFrom count)
  | retired : MainSteps g st .retire .ok { g with writefd := none } st .drain
  | draining (hhandlers : g.handlers ≠ 0) : MainSteps g st .drain .ok g st .drain
  | drained (hhandlers : g.handlers = 0) : MainSteps g st .drain .ok g st .forgetReadfd
  | forgot : MainSteps g st .forgetReadfd .ok { g with readfd := none } st .resetSignal
  | reset : MainSteps g st .resetSignal .ok { g with signal := 0 } st .closeRead
  | closedRead : MainSteps g st .closeRead .ok g st .closeWrite
  | closedWrite (writeEnd : Option ℕ) :
      MainSteps g st .closeWrite .ok { g with writeEnd := writeEnd } st .finished

theorem mainStep_steps {g g' : Globals} {st st' : CliState} {pc pc' : MainPc} {outcome : Outcome}
    (h : mainStep g st pc outcome = some (g', st', pc')) :
    MainSteps g st pc outcome g' st' pc' := by
  cases pc with
  | prepare =>
    cases outcome with
    | ok =>
      simp only [mainStep] at h
      split at h
      · cases h
      · next hreadfd =>
        cases h
        exact .began (by simpa using hreadfd)
    | fails e =>
      cases h
      exact .refused e
    | _ => cases h
  | copyPidfile =>
    cases outcome with
    | ok =>
      cases h
      exact .copied
    | fails e =>
      cases h
      exact .abandoned _ _ (.inl rfl)
    | _ => cases h
  | pipe =>
    cases outcome with
    | pipe readEnd writeEnd =>
      cases h
      refine .piped readEnd writeEnd _ ?_
      by_cases hlimit : fdSetSize ≤ readEnd
      · exact .inr (if_pos hlimit)
      · exact .inl (if_neg hlimit)
    | fails e =>
      cases h
      exact .abandoned _ _ (.inr (.inl rfl))
    | _ => cases h
  | fcntl remaining =>
    cases outcome with
    | ok =>
      cases remaining with
      | zero => cases h
      | succ remaining =>
        cases h
        refine .configured remaining _ ?_
        by_cases hlast : remaining = 0
        · exact .inl (if_pos hlast)
        · exact .inr (if_neg hlast)
    | fails e =>
      have h : some (g, st, restoreFrom st.installed) = some (g', st', pc') := by
        cases remaining <;> exact h
      cases h
      exact .abandoned _ _ (.inr (.inr (.inl ⟨remaining, rfl⟩)))
    | _ => cases remaining <;> cases h
  | storeReadfd =>
    cases outcome with
    | ok =>
      cases h
      exact .storedReadfd
    | _ => cases h
  | storeWritefd =>
    cases outcome with
    | ok =>
      cases h
      exact .storedWritefd
    | _ => cases h
  | clearSignal =>
    cases outcome with
    | ok =>
      cases h
      exact .clearedSignal
    | _ => cases h
  | sigaction index =>
    cases outcome with
    | ok =>
      simp only [mainStep] at h
      split at h
      · cases h
      · next signal hsignal =>
        cases h
        refine .installed index signal _ ?_
        by_cases hlast : index + 1 = 3
        · exact .inl (if_pos hlast)
        · exact .inr (if_neg hlast)
    | fails e =>
      cases h
      exact .abandoned _ _ (.inr (.inr (.inr (.inl ⟨index, rfl⟩))))
    | _ => cases h
  | createPidfile =>
    cases outcome with
    | ok =>
      cases h
      exact .prepared
    | fails e =>
      cases h
      exact .abandoned _ _ (.inr (.inr (.inr (.inr (.inl rfl)))))
    | _ => cases h
  | running last =>
    cases outcome with
    | select call =>
      cases h
      exact .selecting last call
    | cleanup =>
      cases h
      exact .abandoned _ _ (.inr (.inr (.inr (.inr (.inr ⟨last, rfl⟩)))))
    | _ => cases h
  | selectCheck call =>
    cases outcome with
    | ok =>
      simp only [mainStep] at h
      split at h
      · next hreadfd =>
        cases h
        exact .plain call hreadfd
      · next fd hreadfd =>
        split at h
        · next hsignal =>
          cases h
          exact .interrupted call hsignal
        · next hsignal =>
          cases h
          exact .waiting call fd hreadfd (by simpa using hsignal)
    | _ => cases h
  | selectWait call =>
    cases outcome with
    | ready ready =>
      simp only [mainStep] at h
      split at h
      · next hready =>
        split at h
        · next hreadfd =>
          cases h
          exact .plainReady call _ _ hreadfd
        · next fd hreadfd =>
          cases h
          exact .ready call ready fd hreadfd hready
      · cases h
    | fails e =>
      simp only [mainStep] at h
      split at h
      · next hreadfd =>
        cases h
        exact .plainReady call _ _ hreadfd
      · next fd hreadfd =>
        cases h
        exact .failed call e fd hreadfd
    | _ => cases h
  | selectRecheck ret =>
    cases outcome with
    | ok =>
      cases h
      exact .rechecked ret
    | _ => cases h
  | restore count =>
    cases count with
    | zero => cases h
    | succ count =>
      simp only [mainStep] at h
      split at h
      · cases h
        exact .restored count _ _
      · cases h
        exact .restored count _ g.handled
      · cases h
  | retire =>
    cases outcome with
    | ok =>
      cases h
      exact .retired
    | _ => cases h
  | drain =>
    cases outcome with
    | ok =>
      cases h
      by_cases hhandlers : g.handlers = 0
      · simp only [hhandlers, ne_eq, not_true_eq_false, if_false]
        exact .drained hhandlers
      · simp only [ne_eq, hhandlers, not_false_eq_true, if_true]
        exact .draining hhandlers
    | _ => cases h
  | forgetReadfd =>
    cases outcome with
    | ok =>
      cases h
      exact .forgot
    | _ => cases h
  | resetSignal =>
    cases outcome with
    | ok =>
      cases h
      exact .reset
    | _ => cases h
  | closeRead =>
    cases outcome with
    | ok =>
      cases h
      exact .closedRead
    | _ => cases h
  | closeWrite =>
    cases outcome with
    | ok =>
      simp only [mainStep] at h
      split at h
      · cases h
        exact .closedWrite none
      · cases h
        exact .closedWrite g.writeEnd
    | _ => cases h
  | finished => cases outcome <;> cases h

inductive Action where
  | deliver (signal : Signal)
  | handler (index : ℕ)
  | main (outcome : Outcome)

/-- A signal that is delivered while the handler is installed for it begins an activation, on any
thread. -/
def Runtime.step (capacity : ℕ) (s : Runtime) : Action → Option Runtime
  | .deliver signal =>
    if s.globals.handled signal then
      some { s with activations := s.activations ++ [⟨signal, .entered⟩] }
    else none
  | .handler index =>
    match s.activations[index]? with
    | none => none
    | some a => (handlerStep capacity s.globals a).map fun (globals, a') =>
        { s with globals := globals, activations := s.activations.set index a' }
  | .main outcome =>
    (mainStep s.globals s.state s.main outcome).map fun (globals, state, main) =>
      { s with globals := globals, state := state, main := main }

inductive Runtime.Steps (capacity : ℕ) (s : Runtime) : Action → Runtime → Prop
  | delivered (signal : Signal) (hhandled : s.globals.handled signal = true) :
      Runtime.Steps capacity s (.deliver signal)
        { s with activations := s.activations ++ [⟨signal, .entered⟩] }
  | handled (index : ℕ) (a a' : Activation) (globals : Globals)
      (ha : s.activations[index]? = some a)
      (hstep : handlerStep capacity s.globals a = some (globals, a')) :
      Runtime.Steps capacity s (.handler index)
        { s with globals := globals, activations := s.activations.set index a' }
  | moved (outcome : Outcome) (globals : Globals) (state : CliState) (main : MainPc)
      (hstep : MainSteps s.globals s.state s.main outcome globals state main) :
      Runtime.Steps capacity s (.main outcome)
        { s with globals := globals, state := state, main := main }

theorem Runtime.step_steps {capacity : ℕ} {s s' : Runtime} {action : Action}
    (h : s.step capacity action = some s') : Runtime.Steps capacity s action s' := by
  cases action with
  | deliver signal =>
    simp only [step] at h
    split at h
    · next hhandled =>
      cases h
      exact .delivered signal hhandled
    · cases h
  | handler index =>
    simp only [step] at h
    split at h
    · cases h
    · next a ha =>
      obtain ⟨⟨globals, a'⟩, hstep, hs'⟩ := Option.map_eq_some_iff.mp h
      cases hs'
      exact .handled index a a' globals ha hstep
  | main outcome =>
    obtain ⟨⟨globals, state, main⟩, hstep, hs'⟩ := Option.map_eq_some_iff.mp h
    cases hs'
    exact .moved outcome globals state main (mainStep_steps hstep)

def Activation.inFlight (a : Activation) : Bool :=
  match a.pc with
  | .entered | .returned => false
  | .counted | .signalled | .loaded _ | .written => true

def Runtime.inFlight (s : Runtime) : ℕ := s.activations.countP Activation.inFlight

/-- Before `iperf3rs_cli_prepare`, with the activations that are left from before. -/
def Runtime.start (signal : ℕ) (leftover : List Activation) : Runtime where
  globals :=
    { signal := signal
      writefd := none
      handlers := UInt32.ofNat (leftover.countP Activation.inFlight)
      readfd := none
      handled := fun _ => false
      buffered := 0
      writeEnd := none }
  state := ⟨(none, none), 0⟩
  main := .prepare
  activations := leftover

def Runtime.run (capacity : ℕ) : Runtime → List Action → Option Runtime
  | s, [] => some s
  | s, action :: actions => (s.step capacity action).bind (Runtime.run capacity · actions)

def Runtime.Step (capacity : ℕ) (s s' : Runtime) : Prop :=
  ∃ action, s.step capacity action = some s'

abbrev Runtime.Reaches (capacity : ℕ) : Runtime → Runtime → Prop :=
  Relation.ReflTransGen (Runtime.Step capacity)

theorem Runtime.reaches_of_run (capacity : ℕ) {s s' : Runtime} (actions : List Action)
    (h : s.run capacity actions = some s') : Runtime.Reaches capacity s s' := by
  induction actions generalizing s with
  | nil =>
    cases h
    exact .refl
  | cons action actions ih =>
    obtain ⟨mid, hstep, hrun⟩ := Option.bind_eq_some_iff.mp h
    exact .head ⟨action, hstep⟩ (ih hrun)

/-- `iperf3rs_cli_prepare` without a failure, with the pipe at the descriptors 3 and 4. -/
def prepareActions : List Action :=
  [.main .ok, .main .ok, .main (.pipe 3 4), .main .ok, .main .ok, .main .ok, .main .ok, .main .ok,
    .main .ok, .main .ok, .main .ok, .main .ok, .main .ok, .main .ok]

def loadActions (index : ℕ) : List Action :=
  [.deliver .int, .handler index, .handler index, .handler index]

end CliRuntime

end Iperf3Rs
