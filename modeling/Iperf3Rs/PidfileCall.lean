import Iperf3Rs.RustText
import Mathlib.Algebra.Group.Nat.Defs
import Mathlib.Algebra.Ring.Int.Defs
import Mathlib.Logic.Function.Basic

/-! `iperf3rs_pidfile_checked`, one system call at a time. The file system is seen from the path
of the pidfile: the object there, and what the inodes hold. The environment decides how a call
ends, within what the call can do on the files as they are. -/

namespace Iperf3Rs

namespace Pidfile

inductive Errno where
  | enoent
  | eexist
  | esrch
  | ebusy
  | einval
  | eio
  | eoverflow
  | other (code : ℕ)
  deriving DecidableEq

/-- `st_dev` and `st_ino`. -/
structure Identity where
  dev : ℕ
  ino : ℕ
  deriving DecidableEq

inductive Node where
  | regular (bytes : List UInt8)
  | other
  deriving DecidableEq

inductive Entry where
  | symlink
  | inode (id : Identity)
  deriving DecidableEq

structure Files where
  entry : Option Entry
  node : Identity → Option Node

def Files.setNode (files : Files) (id : Identity) (node : Option Node) : Files :=
  { files with node := Function.update files.node id node }

def Files.create (files : Files) (id : Identity) : Files where
  entry := some (.inode id)
  node := Function.update files.node id (some (.regular []))

/-- A stale pidfile, naming process 12. -/
def staleFiles : Files where
  entry := some (.inode ⟨1, 7⟩)
  node id := if id = ⟨1, 7⟩ then some (.regular [49, 50, 10]) else none

def isDigit (b : UInt8) : Bool := 48 ≤ b.toNat && b.toNat ≤ 57

def decimal (digits : List UInt8) : ℕ := digits.foldl (fun n b => 10 * n + (b.toNat - 48)) 0

def newline : UInt8 := 10

/-- `sizeof(pid_t) * 3 + 3`. -/
def bufferSize : ℕ := 4 * 3 + 3

/-- The pid in a buffer that has been read to the end of the file. `strtol` saturates with
`ERANGE` from 2^63 on, and the cast to `pid_t` keeps the low 32 bits. -/
def parsePid (buf : List UInt8) : Option ℕ :=
  let digits := if buf.getLast? = some newline then buf.dropLast else buf
  if digits = [] then none
  else if !digits.all isDigit then none
  else
    let value := decimal digits
    let pid := Int.bmod value (2 ^ 32)
    if 2 ^ 63 ≤ value ∨ value = 0 ∨ pid ≤ 0 ∨ pid ≠ value then none else some value

example : parsePid [49, 50, 10] = some 12 := by decide

example : parsePid [52, 50, 57, 52, 57, 54, 55, 50, 57, 55] = none := by decide

def pidText (pid : ℕ) : List UInt8 := Text.bytes (toString pid)

/-- The file the first open has found, and the pid in it. -/
structure Observed where
  id : Identity
  pid : ℕ
  deriving DecidableEq

/-- The system call to be made next, with what is known by then. `existed` is set if the first
open has found a file. -/
inductive Pc where
  | openRead
  | statRead (fd : Identity)
  | read (fd : Identity)
  | readExtra (fd : Identity) (buf : List UInt8)
  | probe (observed : Observed)
  | closeRead (observed : Observed)
  | openWrite (existed : Option Observed)
  | statWrite (fd : Identity) (existed : Option Observed)
  | truncate (observed : Observed)
  | write (fd : Identity)
  | closeWrite (fd : Identity)
  | returned (result : Except Errno Unit)
  deriving DecidableEq

structure Call where
  pc : Pc
  owned : Bool
  identity : Option Identity
  deriving DecidableEq

def Call.start : Call := ⟨.openRead, false, none⟩

inductive Outcome where
  | ok
  | took (count : ℕ)
  | created (id : Identity)
  | fails (error : Errno)
  deriving DecidableEq

/-- What a step has done, apart from failing. `readWhole` is the second read at the end of the
file, behind what the first one has returned. -/
inductive Event where
  | none
  | statted (id : Identity)
  | readWhole (id : Identity) (bytes : List UInt8)
  | noSuchProcess (pid : ℕ)
  | opened (id : Identity)
  | created (id : Identity)
  | truncated (id : Identity)
  | wrote (id : Identity)
  deriving DecidableEq

/-- The label `fail` closes the descriptor, whatever comes of it, and keeps `errno`. -/
def Call.fail (c : Call) (e : Errno) : Call := { c with pc := .returned (.error e) }

/-- The observer of the tests may inject an error at its four stages; in production there is
none. -/
abbrev Observer := ℕ → Option Errno

def Observer.null : Observer := fun _ => none

/-- One system call of the process `caller`, and the decisions up to the next. A call that cannot
end as the outcome says has no step. -/
def Call.step (observe : Observer) (caller : ℕ) (files : Files) (c : Call) (outcome : Outcome) :
    Option (Files × Event × Call) :=
  match c.pc, outcome with
  | .openRead, outcome =>
    match observe 1, outcome with
    | some e, _ => some (files, .none, c.fail e)
    | none, .ok =>
      match files.entry with
      | some (.inode id) =>
        if (files.node id).isSome then some (files, .none, { c with pc := .statRead id }) else none
      | _ => none
    | none, .fails e =>
      if e = .enoent then some (files, .none, { c with pc := .openWrite none })
      else some (files, .none, c.fail e)
    | none, _ => none
  | .statRead fd, .ok =>
    match files.node fd with
    | some (.regular _) =>
      match observe 2 with
      | some e => some (files, .none, c.fail e)
      | none => some (files, .statted fd, { c with pc := .read fd })
    | some .other => some (files, .none, c.fail .einval)
    | none => none
  | .read fd, .took count =>
    match files.node fd with
    | some (.regular bytes) =>
      if count ≤ bufferSize - 1 ∧ count ≤ bytes.length ∧ (count = 0 → bytes = []) then
        some (files, .none, { c with pc := .readExtra fd (bytes.take count) })
      else none
    | _ => none
  | .readExtra fd buf, .ok =>
    match files.node fd with
    | some (.regular bytes) =>
      if buf.length < bytes.length ∨ buf = [] then some (files, .none, c.fail .einval)
      else
        match parsePid buf with
        | none => some (files, .none, c.fail .einval)
        | some pid =>
          match observe 3 with
          | none => some (files, .readWhole fd buf, { c with pc := .probe ⟨fd, pid⟩ })
          | some e =>
            if e = .esrch then
              some (files, .readWhole fd buf, { c with pc := .closeRead ⟨fd, pid⟩ })
            else some (files, .none, c.fail e)
    | _ => none
  | .probe _, .ok => some (files, .none, c.fail .eexist)
  | .probe observed, .fails e =>
    if e = .esrch then some (files, .noSuchProcess observed.pid, { c with pc := .closeRead observed })
    else some (files, .none, c.fail e)
  | .closeRead observed, .ok => some (files, .none, { c with pc := .openWrite (some observed) })
  | .openWrite existed, outcome =>
    match observe 4, existed, outcome with
    | some e, _, _ => some (files, .none, c.fail e)
    | none, _, .fails e => some (files, .none, c.fail e)
    | none, some _, .ok =>
      match files.entry with
      | some (.inode id) =>
        if (files.node id).isSome then
          some (files, .opened id, { c with pc := .statWrite id existed })
        else none
      | _ => none
    -- with O_CREAT and O_EXCL the open succeeds only by creating the file
    | none, none, .created id =>
      if files.entry = none ∧ files.node id = none then
        some (files.create id, .created id, { c with pc := .statWrite id none })
      else none
    | none, _, _ => none
  | .statWrite fd existed, .ok =>
    let c := { c with identity := some fd }
    match existed, files.node fd with
    | _, none => none
    | some observed, some node =>
      if observed.id ≠ fd then some (files, .none, c.fail .ebusy)
      else if node = .other then some (files, .none, c.fail .einval)
      else some (files, .none, { c with pc := .truncate observed })
    | none, some node =>
      if node = .other then some (files, .none, c.fail .einval)
      else some (files, .none, { c with pc := .write fd, owned := true })
  | .truncate ⟨fd, _⟩, .ok =>
    match files.node fd with
    | some (.regular _) =>
      some (files.setNode fd (some (.regular [])), .truncated fd,
        { c with pc := .write fd, owned := true })
    | _ => none
  | .write fd, outcome =>
    let text := pidText caller
    if text.length = 0 ∨ bufferSize ≤ text.length then
      some (files, .none, c.fail .eoverflow)
    else
      match files.node fd, outcome with
      | some (.regular bytes), .took count =>
        if count ≤ text.length then
          some (files.setNode fd (some (.regular (text.take count ++ bytes.drop count))),
            .wrote fd,
            if count = text.length then { c with pc := .closeWrite fd } else c.fail .eio)
        else none
      | some (.regular _), .fails e => some (files, .none, c.fail e)
      | _, _ => none
  | .closeWrite _, .ok => some (files, .none, { c with pc := .returned (.ok ()) })
  | .statRead _, .fails e | .read _, .fails e | .readExtra _ _, .fails e | .closeRead _, .fails e
  | .statWrite _ _, .fails e | .truncate _, .fails e | .closeWrite _, .fails e =>
    some (files, .none, c.fail e)
  | _, _ => none

/-- Everything a step can do. -/
inductive Call.Steps (observe : Observer) (caller : ℕ) (files : Files) (c : Call)
    (outcome : Outcome) : Files → Event → Call → Prop
  | failed (e : Errno) : Steps observe caller files c outcome files .none (c.fail e)
  | mismatched (e : Errno) (fd : Identity) (existed : Option Observed)
      (hpc : c.pc = .statWrite fd existed) :
      Steps observe caller files c outcome files .none ({ c with identity := some fd }.fail e)
  | noFile (hpc : c.pc = .openRead) :
      Steps observe caller files c outcome files .none { c with pc := .openWrite none }
  | openedRead (id : Identity) (node : Node) (hpc : c.pc = .openRead)
      (hentry : files.entry = some (.inode id)) (hnode : files.node id = some node) :
      Steps observe caller files c outcome files .none { c with pc := .statRead id }
  | statted (fd : Identity) (bytes : List UInt8) (hpc : c.pc = .statRead fd)
      (hnode : files.node fd = some (.regular bytes)) :
      Steps observe caller files c outcome files (.statted fd) { c with pc := .read fd }
  | read (fd : Identity) (bytes : List UInt8) (count : ℕ) (hpc : c.pc = .read fd)
      (hnode : files.node fd = some (.regular bytes)) :
      Steps observe caller files c outcome files .none
        { c with pc := .readExtra fd (bytes.take count) }
  | readWhole (fd : Identity) (buf bytes : List UInt8) (pid : ℕ) (hpc : c.pc = .readExtra fd buf)
      (hnode : files.node fd = some (.regular bytes)) (hlen : bytes.length ≤ buf.length)
      (hpid : parsePid buf = some pid) :
      Steps observe caller files c outcome files (.readWhole fd buf) { c with pc := .probe ⟨fd, pid⟩ }
  | injected (fd : Identity) (buf bytes : List UInt8) (pid : ℕ) (hpc : c.pc = .readExtra fd buf)
      (hnode : files.node fd = some (.regular bytes)) (hlen : bytes.length ≤ buf.length)
      (hpid : parsePid buf = some pid) (hobserve : observe 3 = some .esrch) :
      Steps observe caller files c outcome files (.readWhole fd buf)
        { c with pc := .closeRead ⟨fd, pid⟩ }
  | noSuchProcess (observed : Observed) (hpc : c.pc = .probe observed)
      (houtcome : outcome = .fails .esrch) :
      Steps observe caller files c outcome files (.noSuchProcess observed.pid)
        { c with pc := .closeRead observed }
  | closedRead (observed : Observed) (hpc : c.pc = .closeRead observed) :
      Steps observe caller files c outcome files .none { c with pc := .openWrite (some observed) }
  | openedWrite (id : Identity) (node : Node) (observed : Observed)
      (hpc : c.pc = .openWrite (some observed)) (hentry : files.entry = some (.inode id))
      (hnode : files.node id = some node) :
      Steps observe caller files c outcome files (.opened id)
        { c with pc := .statWrite id (some observed) }
  | created (id : Identity) (hpc : c.pc = .openWrite none) (hentry : files.entry = none)
      (hnode : files.node id = none) :
      Steps observe caller files c outcome (files.create id) (.created id)
        { c with pc := .statWrite id none }
  | matched (observed : Observed) (bytes : List UInt8)
      (hpc : c.pc = .statWrite observed.id (some observed))
      (hnode : files.node observed.id = some (.regular bytes)) :
      Steps observe caller files c outcome files .none
        { c with pc := .truncate observed, identity := some observed.id }
  | fresh (fd : Identity) (bytes : List UInt8) (hpc : c.pc = .statWrite fd none)
      (hnode : files.node fd = some (.regular bytes)) :
      Steps observe caller files c outcome files .none ⟨.write fd, true, some fd⟩
  | truncated (observed : Observed) (bytes : List UInt8) (hpc : c.pc = .truncate observed)
      (hnode : files.node observed.id = some (.regular bytes)) (houtcome : outcome = .ok) :
      Steps observe caller files c outcome (files.setNode observed.id (some (.regular [])))
        (.truncated observed.id) { c with pc := .write observed.id, owned := true }
  | wrote (fd : Identity) (bytes : List UInt8) (hpc : c.pc = .write fd)
      (hnode : files.node fd = some (.regular bytes)) :
      Steps observe caller files c outcome
        (files.setNode fd (some (.regular (pidText caller ++ bytes.drop (pidText caller).length))))
        (.wrote fd) { c with pc := .closeWrite fd }
  | stoppedShort (fd : Identity) (bytes : List UInt8) (count : ℕ) (hpc : c.pc = .write fd)
      (hnode : files.node fd = some (.regular bytes)) (houtcome : outcome = .took count)
      (hshort : count < (pidText caller).length) :
      Steps observe caller files c outcome
        (files.setNode fd (some (.regular ((pidText caller).take count ++ bytes.drop count))))
        (.wrote fd) (c.fail .eio)
  | closed (fd : Identity) (hpc : c.pc = .closeWrite fd) :
      Steps observe caller files c outcome files .none { c with pc := .returned (.ok ()) }

theorem Call.step_steps {observe : Observer} {caller : ℕ} {files files' : Files} {c c' : Call}
    {outcome : Outcome} {event : Event}
    (h : c.step observe caller files outcome = some (files', event, c')) :
    Call.Steps observe caller files c outcome files' event c' := by
  obtain ⟨pc, owned, identity⟩ := c
  cases pc with
  | openRead =>
    simp only [step] at h
    split at h
    · cases h
      exact .failed _
    · split at h
      · next id hentry =>
        split at h
        · next hnode =>
          obtain ⟨node, hnode⟩ := Option.isSome_iff_exists.mp hnode
          cases h
          exact .openedRead id node rfl hentry hnode
        · cases h
      · cases h
    · split at h
      · cases h
        exact .noFile rfl
      · cases h
        exact .failed _
    · cases h
  | statRead fd =>
    cases outcome with
    | ok =>
      simp only [step] at h
      split at h
      · next bytes hnode =>
        split at h
        · cases h
          exact .failed _
        · cases h
          exact .statted fd bytes rfl hnode
      · cases h
        exact .failed _
      · cases h
    | fails e =>
      cases h
      exact .failed e
    | took _ | created _ => cases h
  | read fd =>
    cases outcome with
    | took count =>
      simp only [step] at h
      split at h
      · next bytes hnode =>
        split at h
        · cases h
          exact .read fd bytes count rfl hnode
        · cases h
      · cases h
    | fails e =>
      cases h
      exact .failed e
    | ok | created _ => cases h
  | readExtra fd buf =>
    cases outcome with
    | ok =>
      simp only [step] at h
      split at h
      · next bytes hnode =>
        split at h
        · cases h
          exact .failed _
        · next hwhole =>
          have hlen : bytes.length ≤ buf.length := by
            simp only [not_or] at hwhole
            omega
          split at h
          · cases h
            exact .failed _
          · next pid hpid =>
            split at h
            · cases h
              exact .readWhole fd buf bytes pid rfl hnode hlen hpid
            · next e hobserve =>
              split at h
              · next he =>
                cases h
                exact .injected fd buf bytes pid rfl hnode hlen hpid (he ▸ hobserve)
              · cases h
                exact .failed _
      · cases h
    | fails e =>
      cases h
      exact .failed e
    | took _ | created _ => cases h
  | probe observed =>
    cases outcome with
    | ok =>
      cases h
      exact .failed _
    | fails e =>
      simp only [step] at h
      split at h
      · next he =>
        cases h
        exact .noSuchProcess observed rfl (he ▸ rfl)
      · cases h
        exact .failed _
    | took _ | created _ => cases h
  | closeRead observed =>
    cases outcome with
    | ok =>
      cases h
      exact .closedRead observed rfl
    | fails e =>
      cases h
      exact .failed e
    | took _ | created _ => cases h
  | openWrite existed =>
    simp only [step] at h
    split at h
    · cases h
      exact .failed _
    · cases h
      exact .failed _
    · next observed _ =>
      split at h
      · next id hentry =>
        split at h
        · next hnode =>
          obtain ⟨node, hnode⟩ := Option.isSome_iff_exists.mp hnode
          cases h
          exact .openedWrite id node observed rfl hentry hnode
        · cases h
      · cases h
    · split at h
      · next hfree =>
        cases h
        exact .created _ rfl hfree.1 hfree.2
      · cases h
    · cases h
  | statWrite fd existed =>
    cases outcome with
    | ok =>
      simp only [step] at h
      split at h
      · cases h
      · next observed node hnode =>
        split at h
        · cases h
          exact .mismatched _ fd (some observed) rfl
        · next hid =>
          simp only [ne_eq, Decidable.not_not] at hid
          split at h
          · cases h
            exact .mismatched _ fd (some observed) rfl
          · cases node with
            | other => contradiction
            | regular bytes =>
              cases h
              subst hid
              exact .matched observed bytes rfl hnode
      · next node hnode =>
        split at h
        · cases h
          exact .mismatched _ fd none rfl
        · cases node with
          | other => contradiction
          | regular bytes =>
            cases h
            exact .fresh fd bytes rfl hnode
    | fails e =>
      cases h
      exact .failed e
    | took _ | created _ => cases h
  | truncate observed =>
    cases outcome with
    | ok =>
      simp only [step] at h
      split at h
      · next bytes hnode =>
        cases h
        exact .truncated observed bytes rfl hnode rfl
      · cases h
    | fails e =>
      cases h
      exact .failed e
    | took _ | created _ => cases h
  | write fd =>
    simp only [step] at h
    split at h
    · cases h
      exact .failed _
    · split at h
      · next bytes count hnode =>
        split at h
        · next hcount =>
          by_cases hall : count = (pidText caller).length
          · subst hall
            simp only [if_true, List.take_length] at h
            cases h
            exact .wrote fd bytes rfl hnode
          · simp only [hall, if_false] at h
            cases h
            exact .stoppedShort fd bytes count rfl hnode rfl (by omega)
        · cases h
      · cases h
        exact .failed _
      · cases h
  | closeWrite fd =>
    cases outcome with
    | ok =>
      cases h
      exact .closed fd rfl
    | fails e =>
      cases h
      exact .failed e
    | took _ | created _ => cases h
  | returned result => cases outcome <;> cases h

end Pidfile

end Iperf3Rs
