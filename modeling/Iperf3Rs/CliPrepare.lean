import Iperf3Rs.CliRuntime
import Iperf3Rs.PidfileChecked
import Mathlib.Data.Finset.Insert

/-! `iperf3rs_cli_prepare` with its failure exits, and `iperf3rs_cli_cleanup` behind each of them.
The environment says how every system call ends, and what others put at the path of the pidfile
between the two opens of its creation and before the cleanup looks at it. -/

namespace Iperf3Rs

namespace CliPrepare

open CliRuntime (Signal cliSignals fdSetSize)
open Pidfile (Errno Files Identity Transition)

def enotsup : Errno := .other 95

def emfile : Errno := .other 24

/-- What the process and the path of the pidfile have that `prepare` may change. A disposition is
any value of `D`; a descriptor variable that holds -1 is `none`. -/
structure Process (D : Type) where
  disposition : Signal → D
  readfd : Option ℕ
  writefd : Option ℕ
  signal : ℕ
  descriptors : Finset ℕ
  errno : Errno
  files : Files

/-- `struct iperf3rs_cli_state`; `installed` is the length of `previous`. -/
structure CliState (D : Type) where
  pipefd : Option ℕ × Option ℕ
  previous : List D
  pidfile : Bool
  owned : Bool
  identity : Option Identity

/-- What `prepare` reads of `struct iperf_test`: `daemon` is set for a server to daemonize. -/
structure Test where
  daemon : Bool
  pidfile : Bool

inductive PidfileEvent where
  | call (outcome : Pidfile.Outcome)
  | replaced (files : Files)

/-- How the calls end, `none` being success. The four calls of `fcntl` and the three of
`sigaction` are numbered. -/
structure PrepareEnv where
  lockFree : Bool
  daemon : Option Errno
  calloc : Option Errno
  strdup : Option Errno
  pipe : Except Errno (ℕ × ℕ)
  fcntl : ℕ → Option Errno
  sigaction : ℕ → Option Errno
  creation : List PidfileEvent
  meanwhile : Option Files
  lstat : Option Errno
  unlink : Option Errno

def createPidfile (caller : ℕ) : List PidfileEvent → List Transition → Files → Pidfile.Call →
    Option (List Transition × Files × Pidfile.Call)
  | [], trace, files, c =>
    match c.pc with
    | .returned _ => some (trace, files, c)
    | _ => none
  | .call outcome :: events, trace, files, c =>
    match c.step .null caller files outcome with
    | none => none
    | some (files', event, c') =>
      createPidfile caller events (trace ++ [⟨files, some event, files'⟩]) files' c'
  | .replaced files' :: events, trace, files, c =>
    if c.pc.betweenOpens ∧ ∀ fd ∈ c.pc.readFd, files'.node fd = files.node fd then
      createPidfile caller events (trace ++ [⟨files, none, files'⟩]) files' c
    else none

section Process

variable {D : Type}

def install (sigaction : ℕ → Option Errno) (handler : D) :
    List Signal → List D → (Signal → D) → Option Errno × List D × (Signal → D)
  | [], previous, disposition => (none, previous, disposition)
  | signal :: signals, previous, disposition =>
    match sigaction previous.length with
    | some e => (some e, previous, disposition)
    | none =>
      install sigaction handler signals (previous ++ [disposition signal])
        (Function.update disposition signal handler)

/-- The loop of the cleanup from `installed - 1` down to 0. To set a disposition that `sigaction`
has reported cannot fail. -/
def restore (previous : List D) : ℕ → (Signal → D) → (Signal → D)
  | 0, disposition => disposition
  | index + 1, disposition =>
    match cliSignals[index]?, previous[index]? with
    | some signal, some old => restore previous index (Function.update disposition signal old)
    | _, _ => restore previous index disposition

def closeFd (fd : Option ℕ) (descriptors : Finset ℕ) : Finset ℕ :=
  match fd with
  | some fd => descriptors.erase fd
  | none => descriptors

def removePidfile (env : PrepareEnv) (identity : Option Identity) (files : Files) :
    Option Errno × Files :=
  match env.lstat, files.entry with
  | some e, _ => (if e = .enoent then none else some e, files)
  | none, none => (none, files)
  | none, some entry =>
    if identity.map Pidfile.Entry.inode = some entry then
      match env.unlink with
      | some e => (some e, files)
      | none => (none, { files with entry := none })
    else (some .ebusy, files)

def cleanup (env : PrepareEnv) (st : CliState D) (p : Process D) : Option Errno × Process D :=
  let p : Process D :=
    { p with
      disposition := restore st.previous st.previous.length p.disposition
      writefd := none
      readfd := none
      signal := 0
      descriptors := closeFd st.pipefd.2 (closeFd st.pipefd.1 p.descriptors)
      files := env.meanwhile.getD p.files }
  if st.owned && st.pidfile then
    let (error, files) := removePidfile env st.identity p.files
    (error, { p with errno := error.getD p.errno, files := files })
  else (none, p)

/-- What `prepare` has come to: the error behind `goto fail`, if any, the state and the process.
The rest is history: what has been done at the path of the pidfile, the end of its creation, and
the files as the cleanup finds them. -/
structure Exit (D : Type) where
  error : Option Errno
  state : CliState D
  process : Process D
  trace : List Transition
  creation : Pidfile.Call
  found : Files

def preparePidfile (caller : ℕ) (env : PrepareEnv) (st : CliState D) (p : Process D) :
    Option (Exit D) :=
  if st.pidfile then
    match createPidfile caller env.creation [] p.files .start with
    | none => none
    | some (trace, files, c) =>
      let error := match c.pc with
        | .returned (.error e) => some e
        | _ => none
      some
        { error := error
          state := { st with owned := c.owned, identity := c.identity }
          process := { p with files := files }
          trace := trace
          creation := c
          found := files }
  else some ⟨none, st, p, [], .start, p.files⟩

/-- `prepare` behind the allocation of the state, up to its return or to `goto fail`. A pipe gets
descriptors that are not in use. -/
def prepareState (caller : ℕ) (env : PrepareEnv) (test : Test) (handler : D) (p : Process D) :
    Option (Exit D) :=
  let st : CliState D := ⟨(none, none), [], false, false, none⟩
  let stop (e : Errno) (st : CliState D) (p : Process D) : Option (Exit D) :=
    some ⟨some e, st, p, [], .start, p.files⟩
  match if test.pidfile then env.strdup else none with
  | some e => stop e st p
  | none =>
    let st := { st with pidfile := test.pidfile }
    match env.pipe with
    | .error e => stop e st p
    | .ok (readEnd, writeEnd) =>
      if readEnd ∈ p.descriptors ∨ writeEnd ∈ p.descriptors then none
      else
        let st := { st with pipefd := (some readEnd, some writeEnd) }
        let p := { p with descriptors := insert writeEnd (insert readEnd p.descriptors) }
        if fdSetSize ≤ readEnd then stop emfile st p
        else
          match (List.range 4).findSome? env.fcntl with
          | some e => stop e st p
          | none =>
            let (error, previous, disposition) :=
              install env.sigaction handler cliSignals [] p.disposition
            let st := { st with previous := previous }
            let p : Process D :=
              { p with
                readfd := some readEnd
                writefd := some writeEnd
                signal := 0
                disposition := disposition }
            match error with
            | some e => stop e st p
            | none => preparePidfile caller env st p

def cliPrepare (caller : ℕ) (env : PrepareEnv) (test : Test) (handler : D) (p : Process D) :
    Option (Option (CliState D) × Exit D) :=
  let refuse (e : Errno) : Option (Option (CliState D) × Exit D) :=
    some (none,
      { error := some e
        state := ⟨(none, none), [], false, false, none⟩
        process := { p with errno := e }
        trace := []
        creation := .start
        found := p.files })
  if p.readfd.isSome then refuse .ebusy
  else if !env.lockFree then refuse enotsup
  else
    match if test.daemon then env.daemon else none with
    | some e => refuse e
    | none =>
      match env.calloc with
      | some e => refuse e
      | none =>
        (prepareState caller env test handler p).map fun exit =>
          match exit.error with
          | none => (some exit.state, exit)
          | some e =>
            (none,
              { exit with
                process := { (cleanup env exit.state exit.process).2 with errno := e }
                found := env.meanwhile.getD exit.process.files })

end Process

end CliPrepare

end Iperf3Rs
