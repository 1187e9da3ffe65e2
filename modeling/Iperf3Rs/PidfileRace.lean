import Iperf3Rs.PidfileCall
import Mathlib.Logic.Relation

/-! Two processes with the same pidfile. Their calls of `iperf3rs_create_pidfile` and the part of
`iperf3rs_cli_cleanup` that removes the pidfile interleave system call by system call; a process
may end at any time. The two processes are named by a `Bool`. -/

namespace Iperf3Rs

namespace Pidfile

/-- The part of the cleanup that removes the pidfile. -/
inductive CleanupPc where
  | before
  | lstat
  | unlink
  | done
  deriving DecidableEq

structure Proc where
  call : Call
  alive : Bool
  cleanup : CleanupPc

structure Race where
  files : Files
  procs : Bool → Proc

/-- Two different numbers in the range of `pid_t`. -/
structure Pids where
  pid : Bool → ℕ
  distinct : pid false ≠ pid true
  pos : ∀ p, 0 < pid p
  lt : ∀ p, pid p < 2 ^ 31

def Race.start (files : Files) : Race := ⟨files, fun _ => ⟨.start, true, .before⟩⟩

def Race.setProc (s : Race) (p : Bool) (proc : Proc) : Race :=
  { s with procs := Function.update s.procs p proc }

/-- `kill` reports `ESRCH` for one of the two only when it has ended. -/
def Race.killAllowed (pids : Pids) (s : Race) (pc : Pc) (outcome : Outcome) : Prop :=
  ∀ observed, pc = .probe observed → outcome = .fails .esrch →
    ∀ p, pids.pid p = observed.pid → (s.procs p).alive = false

instance (pids : Pids) (s : Race) (pc : Pc) (outcome : Outcome) :
    Decidable (s.killAllowed pids pc outcome) :=
  match pc with
  | .probe observed =>
    decidable_of_iff (outcome = .fails .esrch →
        ∀ p, pids.pid p = observed.pid → (s.procs p).alive = false)
      ⟨fun h _ hpc ho => by cases hpc; exact h ho, fun h => h observed rfl⟩
  | .openRead | .statRead _ | .read _ | .readExtra _ _ | .closeRead _ | .openWrite _
  | .statWrite _ _ | .truncate _ | .write _ | .closeWrite _ | .returned _ =>
    .isTrue fun _ hpc => by cases hpc

/-- The descriptors that are open at a system call. -/
def Pc.openFd : Pc → Option Identity
  | .statRead fd | .read fd | .readExtra fd _ | .statWrite fd _ | .write fd | .closeWrite fd =>
    some fd
  | .probe observed | .closeRead observed | .truncate observed => some observed.id
  | .openRead | .openWrite _ | .returned _ => none

inductive Action where
  | call (p : Bool) (outcome : Outcome)
  | beginCleanup (p : Bool)
  | lstat (p : Bool) (outcome : Outcome)
  | unlink (p : Bool) (outcome : Outcome)
  | exit (p : Bool)
  | reclaim (id : Identity)

/-- The cleanup follows the call, whatever it has returned; it leaves a pidfile alone that the
process does not own, and one whose identity is not the recorded one. An inode without a name is
reclaimed once nobody has it open. -/
def Race.step (pids : Pids) (s : Race) : Action → Option Race
  | .call p outcome =>
    let proc := s.procs p
    if proc.alive ∧ proc.cleanup = .before ∧ s.killAllowed pids proc.call.pc outcome then
      (proc.call.step .null (pids.pid p) s.files outcome).map fun (files, _, call) =>
        { s with files := files }.setProc p { proc with call := call }
    else none
  | .beginCleanup p =>
    let proc := s.procs p
    match proc.call.pc, proc.alive, proc.cleanup with
    | .returned _, true, .before =>
      some (s.setProc p { proc with cleanup := if proc.call.owned then .lstat else .done })
    | _, _, _ => none
  | .lstat p outcome =>
    let proc := s.procs p
    match proc.alive, proc.cleanup, outcome with
    | true, .lstat, .fails _ => some (s.setProc p { proc with cleanup := .done })
    | true, .lstat, .ok =>
      match s.files.entry with
      | none => none
      | some .symlink => some (s.setProc p { proc with cleanup := .done })
      | some (.inode id) =>
        some (s.setProc p
          { proc with cleanup := if proc.call.identity = some id then .unlink else .done })
    | _, _, _ => none
  | .unlink p outcome =>
    let proc := s.procs p
    match proc.alive, proc.cleanup, outcome with
    | true, .unlink, .fails _ => some (s.setProc p { proc with cleanup := .done })
    | true, .unlink, .ok =>
      if s.files.entry.isSome then
        some ({ s with files := { s.files with entry := none } }.setProc p
          { proc with cleanup := .done })
      else none
    | _, _, _ => none
  | .exit p => some (s.setProc p { s.procs p with alive := false })
  | .reclaim id =>
    if s.files.entry ≠ some (.inode id) ∧
        ∀ p, (s.procs p).alive = true → (s.procs p).call.pc.openFd ≠ some id then
      some { s with files := s.files.setNode id none }
    else none

def Race.run (pids : Pids) : Race → List Action → Option Race
  | s, [] => some s
  | s, action :: actions => (s.step pids action).bind (Race.run pids · actions)

inductive Race.Steps (pids : Pids) (s : Race) : Action → Race → Prop
  | called {p : Bool} {outcome : Outcome} {files : Files} {event : Event} {call : Call}
      (halive : (s.procs p).alive = true) (hbefore : (s.procs p).cleanup = .before)
      (hkill : s.killAllowed pids (s.procs p).call.pc outcome)
      (hcall : Call.Steps .null (pids.pid p) s.files (s.procs p).call outcome files event call) :
      Steps pids s (.call p outcome)
        ({ s with files := files }.setProc p { s.procs p with call := call })
  | cleaning {action : Action} {p : Bool} {cleanup : CleanupPc}
      (hreturned : (∃ result, (s.procs p).call.pc = .returned result) ∨
        (s.procs p).cleanup ≠ .before)
      (howned : cleanup = .done ∨ (s.procs p).call.owned = true ∨ (s.procs p).cleanup = .lstat)
      (hcleanup : (s.procs p).cleanup ≠ .done) :
      Steps pids s action (s.setProc p { s.procs p with cleanup := cleanup })
  | unlinked {p : Bool} (halive : (s.procs p).alive = true)
      (hcleanup : (s.procs p).cleanup = .unlink) :
      Steps pids s (.unlink p .ok) ({ s with files := { s.files with entry := none } }.setProc p
        { s.procs p with cleanup := .done })
  | exited {p : Bool} : Steps pids s (.exit p) (s.setProc p { s.procs p with alive := false })
  | reclaimed {id : Identity} (hentry : s.files.entry ≠ some (.inode id)) :
      Steps pids s (.reclaim id) { s with files := s.files.setNode id none }

theorem Race.step_steps {pids : Pids} {s s' : Race} {action : Action}
    (h : s.step pids action = some s') : s.Steps pids action s' := by
  cases action with
  | call p outcome =>
    simp only [step] at h
    split at h
    · next hguard =>
      obtain ⟨⟨files, event, call⟩, hcall, hs'⟩ := Option.map_eq_some_iff.mp h
      cases hs'
      exact .called hguard.1 hguard.2.1 hguard.2.2 (Call.step_steps hcall)
    · cases h
  | beginCleanup p =>
    simp only [step] at h
    split at h
    · next result hpc halive hcleanup =>
      cases h
      refine .cleaning (.inl ⟨result, hpc⟩) ?_ (by rw [hcleanup]; decide)
      by_cases howned : (s.procs p).call.owned = true
      · exact .inr (.inl howned)
      · exact .inl (if_neg howned)
    · cases h
  | lstat p outcome =>
    simp only [step] at h
    split at h
    · next e halive hcleanup =>
      cases h
      exact .cleaning (.inr (by rw [hcleanup]; decide)) (.inl rfl) (by rw [hcleanup]; decide)
    · next halive hcleanup =>
      split at h
      · cases h
      · cases h
        exact .cleaning (.inr (by rw [hcleanup]; decide)) (.inl rfl) (by rw [hcleanup]; decide)
      · cases h
        exact .cleaning (.inr (by rw [hcleanup]; decide)) (.inr (.inr hcleanup))
          (by rw [hcleanup]; decide)
    · cases h
  | unlink p outcome =>
    simp only [step] at h
    split at h
    · next e halive hcleanup =>
      cases h
      exact .cleaning (.inr (by rw [hcleanup]; decide)) (.inl rfl) (by rw [hcleanup]; decide)
    · next halive hcleanup =>
      split at h
      · cases h
        exact .unlinked halive hcleanup
      · cases h
    · cases h
  | exit p =>
    cases h
    exact .exited
  | reclaim id =>
    simp only [step] at h
    split at h
    · next hguard =>
      cases h
      exact .reclaimed hguard.1
    · cases h

theorem Race.unlink_ok {pids : Pids} {s s' : Race} {p : Bool}
    (h : s.step pids (.unlink p .ok) = some s') :
    (s.procs p).alive = true ∧ (s.procs p).cleanup = .unlink := by
  simp only [step] at h
  split at h
  · next hcleanup houtcome => cases houtcome
  · next halive hcleanup _ => exact ⟨halive, hcleanup⟩
  · cases h

/-- The process is alive with `owned` set and has not cleaned up. -/
def Proc.Owner (proc : Proc) : Prop :=
  proc.alive = true ∧ proc.call.owned = true ∧ proc.cleanup ≠ .done

/-- The call has returned 0, and the process has neither ended nor cleaned up. -/
def Proc.Won (proc : Proc) : Prop := proc.call.pc = .returned (.ok ()) ∧ proc.Owner

/-- What the code does not ensure, unless the other process has ended or cleaned up: a process that
truncates a stale pidfile finds in it the pid it has found to be gone, and no write stops short. -/
def Race.Careful (pids : Pids) (s : Race) : Action → Prop
  | .call p outcome =>
    (s.procs !p).alive = true → (s.procs !p).cleanup ≠ .done →
      (∀ observed, (s.procs p).call.pc = .truncate observed → outcome = .ok →
        ∃ bytes, s.files.node observed.id = some (.regular bytes) ∧
          parsePid bytes = some observed.pid) ∧
      ∀ fd count, (s.procs p).call.pc = .write fd → outcome = .took count →
        (pidText (pids.pid p)).length ≤ count
  | _ => True

def Race.CarefulStep (pids : Pids) (s s' : Race) : Prop :=
  ∃ action, s.Careful pids action ∧ s.step pids action = some s'

abbrev Race.Reaches (pids : Pids) : Race → Race → Prop :=
  Relation.ReflTransGen (Race.CarefulStep pids)

end Pidfile

end Iperf3Rs
