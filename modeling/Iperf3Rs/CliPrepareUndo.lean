import Iperf3Rs.CliPrepare
import Iperf3Rs.PidfileAccount

/-! What a failed `iperf3rs_cli_prepare` leaves behind. Each failure exit goes through the cleanup,
which takes back as much as the state says has been done; a pidfile that the call has created is
in the state once its `fstat` has succeeded. -/

namespace Iperf3Rs

namespace CliPrepare

open CliRuntime (Signal cliSignals fdSetSize)
open Pidfile (Errno Files Identity Transition)

section Dispositions

variable {D : Type}

theorem restore_append (previous later : List D) {index : ℕ} (h : index ≤ previous.length)
    (disposition : Signal → D) :
    restore (previous ++ later) index disposition = restore previous index disposition := by
  induction index generalizing disposition with
  | zero => rfl
  | succ index ih =>
    have hget : (previous ++ later)[index]? = previous[index]? :=
      List.getElem?_append_left (by omega)
    simp only [restore, hget]
    split
    · exact ih (by omega) _
    · exact ih (by omega) _

theorem restore_installed {previous : List D} {disposition : Signal → D} {signal : Signal}
    (hsignal : cliSignals[previous.length]? = some signal) (handler : D) :
    restore (previous ++ [disposition signal]) (previous ++ [disposition signal]).length
        (Function.update disposition signal handler) =
      restore previous previous.length disposition := by
  have hlast : (previous ++ [disposition signal])[previous.length]? = some (disposition signal) := by
    simp
  rw [List.length_append, List.length_singleton, restore]
  simp only [hsignal, hlast]
  rw [Function.update_idem, Function.update_eq_self, restore_append _ _ (Nat.le_refl _)]

theorem restore_install (sigaction : ℕ → Option Errno) (handler : D) {signals : List Signal}
    {previous : List D} (hsignals : signals = cliSignals.drop previous.length)
    (disposition : Signal → D) :
    restore (install sigaction handler signals previous disposition).2.1
        (install sigaction handler signals previous disposition).2.1.length
        (install sigaction handler signals previous disposition).2.2 =
      restore previous previous.length disposition := by
  induction signals generalizing previous disposition with
  | nil => rfl
  | cons signal signals ih =>
    have hsignal : cliSignals[previous.length]? = some signal := by
      rw [← List.head?_drop, ← hsignals]
      rfl
    have hrest : signals = cliSignals.drop (previous ++ [disposition signal]).length := by
      rw [List.length_append, List.length_singleton, ← List.tail_drop, ← hsignals]
      rfl
    rw [install]
    cases hfails : sigaction previous.length with
    | some e => rfl
    | none => exact (ih hrest _).trans (restore_installed hsignal handler)

end Dispositions

theorem closeFd_insert {descriptors : Finset ℕ} {readEnd writeEnd : ℕ}
    (hread : readEnd ∉ descriptors) (hwrite : writeEnd ∉ descriptors) :
    closeFd (some writeEnd) (closeFd (some readEnd)
      (insert writeEnd (insert readEnd descriptors))) = descriptors := by
  ext fd
  simp only [closeFd, Finset.mem_erase, Finset.mem_insert]
  constructor
  · rintro ⟨hne, hne', rfl | rfl | hmem⟩
    · exact absurd rfl hne
    · exact absurd rfl hne'
    · exact hmem
  · intro hmem
    refine ⟨?_, ?_, .inr (.inr hmem)⟩
    · rintro rfl
      exact hwrite hmem
    · rintro rfl
      exact hread hmem

section Failures

variable (env : PrepareEnv) (test : Test)

def pipeFailure : Option Errno :=
  match env.pipe with
  | .error e => some e
  | .ok (readEnd, _) => if fdSetSize ≤ readEnd then some emfile else none

def refusals : List (Option Errno) :=
  [if env.lockFree then none else some enotsup, if test.daemon then env.daemon else none,
    env.calloc]

def stateFailures : List (Option Errno) :=
  [if test.pidfile then env.strdup else none, pipeFailure env] ++ (List.range 4).map env.fcntl ++
    (List.range 3).map env.sigaction

/-- The first step to fail, apart from those of the creation of the pidfile. -/
def earlyFailure : Option Errno := (refusals env test ++ stateFailures env test).findSome? id

end Failures

/-- A failed call has left everything as before. A created or taken pidfile is gone, if nobody has
put something else in its place and the cleanup can look at it and remove it. -/
structure Undone {D : Type} (env : PrepareEnv) (test : Test) (p : Process D) (exit : Exit D) :
    Prop where
  disposition : exit.process.disposition = p.disposition
  readfd : exit.process.readfd = none
  writefd : exit.process.writefd = none
  descriptors : exit.process.descriptors = p.descriptors
  errno : earlyFailure env test = some exit.process.errno ∨
    earlyFailure env test = none ∧ exit.creation.pc = .returned (.error exit.process.errno)
  untouched : ∀ t ∈ exit.trace, t.own → (t.before.entry ≠ none → t.after.entry = t.before.entry) ∧
    ∀ id, t.before.node id ≠ none → t.after.node id = t.before.node id ∨ Pidfile.Taken exit.trace id
  cleaned : exit.process.files.node = exit.found.node ∧
    (exit.process.files.entry = exit.found.entry ∨
      ∃ id, Pidfile.Taken exit.trace id ∧ exit.found.entry = some (.inode id))
  removed : env.meanwhile = none → env.lstat = none → env.unlink = none →
    ∀ id, Pidfile.Taken exit.trace id → exit.process.files.entry ≠ some (.inode id)

/-- The `fstat` of a pidfile that the call has just created fails. -/
def fstatFails (caller : ℕ) : List PidfileEvent → Files → Pidfile.Call → Bool
  | [], _, _ => false
  | .call outcome :: events, files, c =>
    match c.pc, outcome with
    | .statWrite _ none, .fails _ => true
    | _, _ =>
      match c.step .null caller files outcome with
      | none => false
      | some (files', _, c') => fstatFails caller events files' c'
  | .replaced files' :: events, _, c => fstatFails caller events files' c

/-- The creation of the pidfile is reached, that `fstat` fails, and nothing then stands in the way
of a removal. -/
def MissesCreated (caller : ℕ) (env : PrepareEnv) (test : Test) (files : Files) : Prop :=
  earlyFailure env test = none ∧ test.pidfile = true ∧ env.meanwhile = none ∧ env.lstat = none ∧
    env.unlink = none ∧ fstatFails caller env.creation files .start = true

section Creation

variable {caller : ℕ} {events : List PidfileEvent} {trace trace' : List Transition}
  {files files' : Files} {c c' : Pidfile.Call}

theorem run_createPidfile (hrun : Pidfile.Run .null caller trace files c)
    (h : createPidfile caller events trace files c = some (trace', files', c')) :
    Pidfile.Run .null caller trace' files' c' ∧ ∃ result, c'.pc = .returned result := by
  induction events generalizing trace files c with
  | nil =>
    rw [createPidfile] at h
    split at h
    · next result hpc =>
      cases h
      exact ⟨hrun, result, hpc⟩
    · cases h
  | cons event events ih =>
    cases event with
    | call outcome =>
      rw [createPidfile] at h
      split at h
      · cases h
      · next files₁ event c₁ hstep => exact ih (hrun.call outcome hstep) h
    | replaced files₁ =>
      rw [createPidfile] at h
      split at h
      · next hallowed =>
        refine ih (hrun.replaced files₁ hallowed.1 fun fd hfd => hallowed.2 fd hfd) h
      · cases h

theorem createPidfile_returned {result : Except Errno Unit} (hpc : c.pc = .returned result)
    (h : createPidfile caller events trace files c = some (trace', files', c')) :
    trace' = trace ∧ files' = files ∧ c' = c := by
  cases events with
  | nil =>
    simp only [createPidfile, hpc, Option.some.injEq, Prod.mk.injEq] at h
    exact ⟨h.1.symm, h.2.1.symm, h.2.2.symm⟩
  | cons event events =>
    cases event with
    | call outcome =>
      rw [createPidfile] at h
      split at h
      · cases h
      · next hstep =>
        obtain ⟨pc, owned, identity⟩ := c
        simp only at hpc
        subst hpc
        cases outcome <;> cases hstep
    | replaced files₁ => simp [createPidfile, hpc, Pidfile.Pc.betweenOpens] at h

theorem accounted_createPidfile (hrun : Pidfile.Run .null caller trace files c)
    (hacc : Pidfile.Accounted trace files c)
    (h : createPidfile caller events trace files c = some (trace', files', c')) :
    (fstatFails caller events files c = false ∧ Pidfile.Accounted trace' files' c') ∨
      (fstatFails caller events files c = true ∧ c'.owned = false ∧
        ∃ id, Pidfile.Did trace' (.created id) ∧ files'.entry = some (.inode id)) := by
  induction events generalizing trace files c with
  | nil =>
    rw [createPidfile] at h
    split at h
    · cases h
      exact .inl ⟨rfl, hacc⟩
    · cases h
  | cons event events ih =>
    cases event with
    | replaced files₁ =>
      rw [createPidfile] at h
      rw [fstatFails]
      split at h
      · next hallowed =>
        exact ih (hrun.replaced files₁ hallowed.1 fun fd hfd => hallowed.2 fd hfd)
          (hacc.replaced hallowed.1 files₁) h
      · cases h
    | call outcome =>
      rw [createPidfile] at h
      split at h
      · cases h
      · next files₁ event c₁ hstep =>
        by_cases hmissed : ∃ id e, c.pc = .statWrite id none ∧ outcome = .fails e
        · obtain ⟨id, e, hpc, rfl⟩ := hmissed
          have hfacts := hrun.inv.facts
          simp only [Pidfile.PcFacts, hpc] at hfacts
          obtain ⟨howned, hdid, hnode⟩ := hfacts
          rcases Pidfile.step_fstat_created hpc hnode hstep with ⟨e', he, rfl, rfl, rfl⟩ | ⟨he, -⟩
          · obtain ⟨rfl, rfl, rfl⟩ := createPidfile_returned rfl h
            refine .inr ⟨by simp only [fstatFails, hpc], howned, id, ?_, hacc.atStat id hpc⟩
            exact Pidfile.did_append.mpr (.inl hdid)
          · cases he
        · have hfails : fstatFails caller (.call outcome :: events) files c =
              fstatFails caller events files₁ c₁ := by
            simp only [fstatFails, hstep]
            split
            · next id e hpc => exact absurd ⟨id, e, hpc, rfl⟩ hmissed
            · rfl
          rw [hfails]
          refine ih (hrun.call outcome hstep) ?_ h
          exact hacc.call hrun.inv hstep fun id e hpc he => hmissed ⟨id, e, hpc, he⟩

end Creation

section Exits

variable {D : Type} {caller : ℕ} {env : PrepareEnv} {test : Test} {handler : D} {p : Process D}

/-- What the state and the process have behind `goto fail`: the cleanup can put everything back. -/
structure Undoable (p : Process D) (st : CliState D) (p' : Process D) : Prop where
  restored : restore st.previous st.previous.length p'.disposition = p.disposition
  closed : closeFd st.pipefd.2 (closeFd st.pipefd.1 p'.descriptors) = p.descriptors

structure Exit.Early (exit : Exit D) : Prop where
  trace : exit.trace = []
  owned : exit.state.owned = false

structure Exit.Created (caller : ℕ) (env : PrepareEnv) (files : Files) (exit : Exit D) : Prop where
  run : createPidfile caller env.creation [] files .start =
    some (exit.trace, exit.process.files, exit.creation)
  pidfile : exit.state.pidfile = true
  owned : exit.state.owned = exit.creation.owned
  identity : exit.state.identity = exit.creation.identity
  error : ∀ e, exit.error = some e → exit.creation.pc = .returned (.error e)

theorem install_error (sigaction : ℕ → Option Errno) (handler : D) (disposition : Signal → D) :
    (install sigaction handler cliSignals [] disposition).1 =
      (List.range 3).findSome? sigaction := by
  have hrange : List.range 3 = [0, 1, 2] := rfl
  simp only [hrange, cliSignals, install, List.findSome?_cons, List.findSome?_nil,
    List.length_nil, List.length_append, List.length_singleton]
  cases sigaction 0 with
  | some e => rfl
  | none =>
    cases sigaction (0 + 1) with
    | some e => rfl
    | none => cases sigaction (0 + 1 + 1) <;> rfl

theorem stateFailures_eq (env : PrepareEnv) (test : Test) :
    (stateFailures env test).findSome? id =
      (if test.pidfile then env.strdup else none).or ((pipeFailure env).or
        (((List.range 4).findSome? env.fcntl).or ((List.range 3).findSome? env.sigaction))) := by
  have htwo : ∀ x y : Option Errno, [x, y].findSome? id = x.or y := by
    intro x y
    cases x <;> cases y <;> rfl
  simp only [stateFailures, List.findSome?_append, List.findSome?_map, htwo, Option.or_assoc]
  rfl

theorem preparePidfile_exit {st : CliState D} {p₁ : Process D} {exit : Exit D} {e : Errno}
    (h : preparePidfile caller env st p₁ = some exit) (herror : exit.error = some e) :
    st.pidfile = true ∧ exit.Created caller env p₁.files ∧
      exit.state.previous = st.previous ∧ exit.state.pipefd = st.pipefd ∧
      exit.process.disposition = p₁.disposition ∧ exit.process.descriptors = p₁.descriptors := by
  rw [preparePidfile] at h
  split at h
  · next hpidfile =>
    split at h
    · cases h
    · next trace files c hcreate =>
      cases h
      refine ⟨hpidfile, ⟨hcreate, hpidfile, rfl, rfl, ?_⟩, rfl, rfl, rfl, rfl⟩
      simp only at herror ⊢
      intro e' he'
      split at he'
      · next hpc =>
        cases he'
        exact hpc
      · cases he'
  · cases h
    cases herror

theorem prepareState_exit {exit : Exit D} {e : Errno}
    (h : prepareState caller env test handler p = some exit) (herror : exit.error = some e) :
    Undoable p exit.state exit.process ∧
      ((stateFailures env test).findSome? id = some e ∧ exit.Early ∨
        (stateFailures env test).findSome? id = none ∧ test.pidfile = true ∧
          exit.Created caller env p.files) := by
  rw [stateFailures_eq]
  simp only [prepareState] at h
  split at h
  · next e' hstrdup =>
    cases h
    cases herror
    rw [hstrdup]
    exact ⟨⟨rfl, rfl⟩, .inl ⟨rfl, ⟨rfl, rfl⟩⟩⟩
  · next hstrdup =>
    rw [hstrdup, Option.none_or]
    split at h
    · next e' hpipe =>
      cases h
      cases herror
      have hfailure : pipeFailure env = some e := by simp only [pipeFailure, hpipe]
      rw [hfailure]
      exact ⟨⟨rfl, rfl⟩, .inl ⟨rfl, ⟨rfl, rfl⟩⟩⟩
    · next readEnd writeEnd hpipe =>
      split at h
      · cases h
      · next hfresh =>
        rw [not_or] at hfresh
        have hclosed := closeFd_insert hfresh.1 hfresh.2
        split at h
        · next hlarge =>
          cases h
          cases herror
          have hfailure : pipeFailure env = some emfile := by
            simp only [pipeFailure, hpipe, hlarge, if_true]
          rw [hfailure]
          exact ⟨⟨rfl, hclosed⟩, .inl ⟨rfl, ⟨rfl, rfl⟩⟩⟩
        · next hsmall =>
          have hfailure : pipeFailure env = none := by
            simp only [pipeFailure, hpipe, hsmall, if_false]
          rw [hfailure, Option.none_or]
          split at h
          · next e' hfcntl =>
            cases h
            cases herror
            rw [hfcntl]
            exact ⟨⟨rfl, hclosed⟩, .inl ⟨rfl, ⟨rfl, rfl⟩⟩⟩
          · next hfcntl =>
            have hsignals : cliSignals = cliSignals.drop ([] : List D).length := rfl
            have hrestored := restore_install env.sigaction handler hsignals p.disposition
            rw [hfcntl, Option.none_or, ← install_error env.sigaction handler p.disposition]
            split at h
            · next e' hinstall =>
              cases h
              cases herror
              rw [hinstall]
              exact ⟨⟨hrestored, hclosed⟩, .inl ⟨rfl, ⟨rfl, rfl⟩⟩⟩
            · next hinstall =>
              rw [hinstall]
              obtain ⟨htest, hcreated, hprevious, hpipefd, hdisposition, hdescriptors⟩ :=
                preparePidfile_exit h herror
              refine ⟨⟨?_, ?_⟩, .inr ⟨rfl, htest, hcreated⟩⟩
              · rw [hprevious, hdisposition]
                exact hrestored
              · rw [hpipefd, hdescriptors]
                exact hclosed

theorem removePidfile_files (env : PrepareEnv) (identity : Option Identity) (files : Files) :
    (removePidfile env identity files).2.node = files.node ∧
      ((removePidfile env identity files).2.entry = files.entry ∨
        ∃ id, identity = some id ∧ files.entry = some (.inode id)) := by
  simp only [removePidfile]
  split
  · exact ⟨rfl, .inl rfl⟩
  · exact ⟨rfl, .inl rfl⟩
  · next entry hlstat hentry =>
    split
    · next hsame =>
      obtain ⟨id, hidentity, rfl⟩ := Option.map_eq_some_iff.mp hsame
      split
      · exact ⟨rfl, .inl rfl⟩
      · exact ⟨rfl, .inr ⟨id, hidentity, hentry⟩⟩
    · exact ⟨rfl, .inl rfl⟩

theorem removePidfile_removed (hlstat : env.lstat = none) (hunlink : env.unlink = none)
    (id : Identity) (files : Files) :
    (removePidfile env (some id) files).2.entry ≠ some (.inode id) := by
  simp only [removePidfile, hlstat, hunlink, Option.map_some]
  cases hentry : files.entry with
  | none =>
    rw [hentry]
    exact nofun
  | some entry =>
    by_cases hsame : some (Pidfile.Entry.inode id) = some entry
    · simp only [hsame, if_true]
      exact nofun
    · simp only [hsame, if_false, hentry]
      exact fun heq => hsame heq.symm

theorem cleanup_files (env : PrepareEnv) (st : CliState D) (p : Process D) :
    (cleanup env st p).2.files =
      if st.owned && st.pidfile then
        (removePidfile env st.identity (env.meanwhile.getD p.files)).2
      else env.meanwhile.getD p.files := by
  simp only [cleanup]
  split <;> rfl

theorem Undoable.cleanup {st : CliState D} {p' : Process D} (h : Undoable p st p')
    (env : PrepareEnv) :
    (cleanup env st p').2.disposition = p.disposition ∧ (cleanup env st p').2.readfd = none ∧
      (cleanup env st p').2.writefd = none ∧
      (cleanup env st p').2.descriptors = p.descriptors := by
  simp only [CliPrepare.cleanup]
  split
  · exact ⟨h.restored, rfl, rfl, h.closed⟩
  · exact ⟨h.restored, rfl, rfl, h.closed⟩

/-- The two ways `prepare` fails: before there is a state, or with a cleanup of it. -/
theorem cliPrepare_exit {exit : Exit D} (hreadfd : p.readfd = none)
    (h : cliPrepare caller env test handler p = some (none, exit)) :
    (∃ e, (refusals env test).findSome? id = some e ∧ exit.trace = [] ∧ exit.found = p.files ∧
        exit.process = { p with errno := e }) ∨
      ∃ exit₀ e, (refusals env test).findSome? id = none ∧
        prepareState caller env test handler p = some exit₀ ∧ exit₀.error = some e ∧
        exit.trace = exit₀.trace ∧ exit.creation = exit₀.creation ∧
        exit.found = env.meanwhile.getD exit₀.process.files ∧
        exit.process = { (cleanup env exit₀.state exit₀.process).2 with errno := e } := by
  have hidle : p.readfd.isSome = false := by rw [hreadfd, Option.isSome_none]
  simp only [cliPrepare, hidle, Bool.false_eq_true, if_false] at h
  simp only [refusals]
  split at h
  · next hlockFree =>
    rw [Bool.not_eq_true'] at hlockFree
    cases h
    rw [hlockFree]
    exact .inl ⟨enotsup, rfl, rfl, rfl, rfl⟩
  · next hlockFree =>
    rw [Bool.not_eq_true', Bool.not_eq_false] at hlockFree
    rw [hlockFree]
    split at h
    · next e hdaemon =>
      cases h
      rw [hdaemon]
      exact .inl ⟨e, rfl, rfl, rfl, rfl⟩
    · next hdaemon =>
      rw [hdaemon]
      split at h
      · next e hcalloc =>
        cases h
        rw [hcalloc]
        exact .inl ⟨e, rfl, rfl, rfl, rfl⟩
      · next hcalloc =>
        rw [hcalloc]
        obtain ⟨exit₀, hstate, hexit⟩ := Option.map_eq_some_iff.mp h
        cases herror : exit₀.error with
        | none =>
          rw [herror] at hexit
          cases hexit
        | some e =>
          rw [herror] at hexit
          cases hexit
          exact .inr ⟨exit₀, e, rfl, hstate, herror, rfl, rfl, rfl, rfl⟩

theorem earlyFailure_eq (env : PrepareEnv) (test : Test) :
    earlyFailure env test =
      ((refusals env test).findSome? id).or ((stateFailures env test).findSome? id) := by
  rw [earlyFailure, List.findSome?_append]

theorem Exit.Created.removed {exit : Exit D} (hcreated : exit.Created caller env p.files)
    (hlstat : env.lstat = none) (hunlink : env.unlink = none) {id : Identity}
    (howned : exit.creation.owned = true) (hidentity : exit.creation.identity = some id) :
    (cleanup env exit.state exit.process).2.files.entry ≠ some (.inode id) := by
  rw [cleanup_files, hcreated.owned, howned, hcreated.pidfile, hcreated.identity, hidentity,
    Bool.and_self, if_pos rfl]
  exact removePidfile_removed hlstat hunlink id _

theorem cleanup_files_unowned {st : CliState D} (howned : st.owned = false) (p : Process D) :
    (cleanup env st p).2.files = env.meanwhile.getD p.files := by
  rw [cleanup_files, howned, Bool.false_and, if_neg Bool.false_ne_true]

theorem Exit.Created.cleaned {exit : Exit D} (hcreated : exit.Created caller env p.files) :
    (cleanup env exit.state exit.process).2.files.node =
        (env.meanwhile.getD exit.process.files).node ∧
      ((cleanup env exit.state exit.process).2.files.entry =
          (env.meanwhile.getD exit.process.files).entry ∨
        ∃ id, Pidfile.Taken exit.trace id ∧
          (env.meanwhile.getD exit.process.files).entry = some (.inode id)) := by
  by_cases howned : exit.state.owned = true
  · rw [cleanup_files, howned, hcreated.pidfile, Bool.and_self, if_pos rfl]
    obtain ⟨hnode, hentry⟩ :=
      removePidfile_files env exit.state.identity (env.meanwhile.getD exit.process.files)
    refine ⟨hnode, hentry.imp_right ?_⟩
    rintro ⟨id, hidentity, hthere⟩
    have hrun := (run_createPidfile (.start p.files) hcreated.run).1
    obtain ⟨id', hidentity', htaken⟩ := hrun.taken_of_owned (hcreated.owned.symm.trans howned)
    have hid : id' = id := by
      rw [hcreated.identity, hidentity'] at hidentity
      exact Option.some.inj hidentity
    exact ⟨id, hid ▸ htaken, hthere⟩
  · rw [Bool.not_eq_true] at howned
    rw [cleanup_files_unowned howned]
    exact ⟨rfl, .inl rfl⟩

theorem Exit.Created.untouched {exit : Exit D} (hcreated : exit.Created caller env p.files) :
    ∀ t ∈ exit.trace, t.own → (t.before.entry ≠ none → t.after.entry = t.before.entry) ∧
      ∀ id, t.before.node id ≠ none →
        t.after.node id = t.before.node id ∨ Pidfile.Taken exit.trace id := by
  have hrun := (run_createPidfile (.start p.files) hcreated.run).1
  intro t ht hown
  constructor
  · intro hthere
    by_contra hmoved
    exact hthere (hrun.inv.creates t ht hown (.inl hmoved)).1
  · intro id hthere
    by_cases hsame : t.after.node id = t.before.node id
    · exact .inl hsame
    · obtain ⟨howned, hidentity⟩ := hrun.taken t ht hown id hthere hsame
      obtain ⟨id', hidentity', htaken⟩ := hrun.taken_of_owned howned
      have hid : id' = id := Option.some.inj (hidentity'.symm.trans hidentity)
      exact .inr (hid ▸ htaken)

theorem Exit.Created.removed_iff {exit : Exit D} (hcreated : exit.Created caller env p.files) :
    (env.meanwhile = none → env.lstat = none → env.unlink = none →
        ∀ id, Pidfile.Taken exit.trace id →
          (cleanup env exit.state exit.process).2.files.entry ≠ some (.inode id)) ↔
      ¬(env.meanwhile = none ∧ env.lstat = none ∧ env.unlink = none ∧
        fstatFails caller env.creation p.files .start = true) := by
  obtain ⟨hrun, result, hreturned⟩ := run_createPidfile (.start p.files) hcreated.run
  rcases accounted_createPidfile (.start p.files) (Pidfile.accounted_start p.files) hcreated.run with
    ⟨hfstat, hacc⟩ | ⟨hfstat, hunowned, id, hdid, hentry⟩
  · refine iff_of_true ?_ ?_
    · intro hmeanwhile hlstat hunlink id htaken
      have hrecorded : exit.creation.owned = true ∧ exit.creation.identity = some id := by
        rcases htaken with hdid | hdid
        · rcases hacc.created id hdid with hpc | hrecorded
          · rw [hreturned] at hpc
            cases hpc
          · exact hrecorded
        · exact hrun.truncated hdid
      exact hcreated.removed hlstat hunlink hrecorded.1 hrecorded.2
    · rintro ⟨-, -, -, hfails⟩
      rw [hfstat] at hfails
      cases hfails
  · rw [cleanup_files_unowned (hcreated.owned.trans hunowned)]
    constructor
    · rintro hremoved ⟨hmeanwhile, hlstat, hunlink, -⟩
      refine hremoved hmeanwhile hlstat hunlink id (.inl hdid) ?_
      rw [hmeanwhile]
      exact hentry
    · intro hnot hmeanwhile hlstat hunlink
      exact absurd ⟨hmeanwhile, hlstat, hunlink, hfstat⟩ hnot

theorem undone_of_early {exit : Exit D} (hearly : earlyFailure env test = some exit.process.errno)
    (hdisposition : exit.process.disposition = p.disposition)
    (hnoRead : exit.process.readfd = none) (hnoWrite : exit.process.writefd = none)
    (hdescriptors : exit.process.descriptors = p.descriptors) (htrace : exit.trace = [])
    (hfiles : exit.process.files = exit.found) : Undone env test p exit where
  disposition := hdisposition
  readfd := hnoRead
  writefd := hnoWrite
  descriptors := hdescriptors
  errno := .inl hearly
  untouched t ht := by
    rw [htrace] at ht
    cases ht
  cleaned := by
    rw [hfiles]
    exact ⟨rfl, .inl rfl⟩
  removed := by
    rw [htrace]
    rintro - - - id (⟨t, ht, -⟩ | ⟨t, ht, -⟩)
    · cases ht
    · cases ht

theorem not_misses_of_early {e : Errno} (hearly : earlyFailure env test = some e)
    (files : Files) : ¬ MissesCreated caller env test files := by
  rintro ⟨hnone, -⟩
  rw [hearly] at hnone
  cases hnone

/-- A NULL return leaves the process and the files as before, unless the `fstat` of a pidfile that
the call has just created fails: this file stays where it is. -/
theorem cli_prepare_undone {exit : Exit D} (hreadfd : p.readfd = none) (hwritefd : p.writefd = none)
    (h : cliPrepare caller env test handler p = some (none, exit)) :
    Undone env test p exit ↔ ¬ MissesCreated caller env test p.files := by
  rcases cliPrepare_exit hreadfd h with ⟨e, hrefused, htrace, hfound, hprocess⟩ |
    ⟨exit₀, e, haccepted, hstate, herror, htrace, hcreation, hfound, hprocess⟩
  · have hearly : earlyFailure env test = some e := by
      rw [earlyFailure_eq, hrefused, Option.some_or]
    refine iff_of_true ?_ (not_misses_of_early hearly p.files)
    apply undone_of_early
    · rw [hprocess]
      exact hearly
    · rw [hprocess]
    · rw [hprocess]
      exact hreadfd
    · rw [hprocess]
      exact hwritefd
    · rw [hprocess]
    · exact htrace
    · rw [hprocess, hfound]
  · have hearly : earlyFailure env test = (stateFailures env test).findSome? id := by
      rw [earlyFailure_eq, haccepted, Option.none_or]
    obtain ⟨hundoable, hend⟩ := prepareState_exit hstate herror
    obtain ⟨hdisposition, hnoRead, hnoWrite, hdescriptors⟩ := hundoable.cleanup env
    rcases hend with ⟨hfailure, hbegun⟩ | ⟨hfailure, htest, hcreated⟩
    · rw [hfailure] at hearly
      refine iff_of_true ?_ (not_misses_of_early hearly p.files)
      apply undone_of_early
      · rw [hprocess]
        exact hearly
      · rw [hprocess]
        exact hdisposition
      · rw [hprocess]
        exact hnoRead
      · rw [hprocess]
        exact hnoWrite
      · rw [hprocess]
        exact hdescriptors
      · exact htrace.trans hbegun.trace
      · rw [hprocess, hfound]
        exact cleanup_files_unowned hbegun.owned exit₀.process
    · rw [hfailure] at hearly
      have hmisses : MissesCreated caller env test p.files ↔
          env.meanwhile = none ∧ env.lstat = none ∧ env.unlink = none ∧
            fstatFails caller env.creation p.files .start = true := by
        simp only [MissesCreated, hearly, htest, true_and]
      rw [hmisses, ← hcreated.removed_iff]
      constructor
      · intro hundone
        have hremoved := hundone.removed
        rw [hprocess, htrace] at hremoved
        exact hremoved
      · intro hremoved
        refine ⟨?_, ?_, ?_, ?_, ?_, ?_, ?_, ?_⟩
        · rw [hprocess]
          exact hdisposition
        · rw [hprocess]
          exact hnoRead
        · rw [hprocess]
          exact hnoWrite
        · rw [hprocess]
          exact hdescriptors
        · rw [hprocess, hcreation]
          exact .inr ⟨hearly, hcreated.error e herror⟩
        · rw [htrace]
          exact hcreated.untouched
        · rw [hprocess, hfound, htrace]
          exact hcreated.cleaned
        · rw [hprocess, htrace]
          exact hremoved

end Exits

section Runs

def idleProcess (files : Files) : Process ℕ :=
  ⟨fun _ => 0, none, none, 0, {0, 1, 2}, .other 0, files⟩

def undisturbed (creation : List PidfileEvent) : PrepareEnv where
  lockFree := true
  daemon := none
  calloc := none
  strdup := none
  pipe := .ok (3, 4)
  fcntl _ := none
  sigaction _ := none
  creation := creation
  meanwhile := none
  lstat := none
  unlink := none

/-- A stale pidfile is taken over, and the disk is full. -/
def fullDisk : List PidfileEvent :=
  [.call .ok, .call .ok, .call (.took 3), .call .ok, .call (.fails .esrch), .call .ok, .call .ok,
    .call .ok, .call .ok, .call (.fails (.other 28))]

theorem cli_prepare_undone_fullDisk : ∃ exit,
    cliPrepare 34 (undisturbed fullDisk) ⟨false, true⟩ 1 (idleProcess Pidfile.staleFiles) =
        some (none, exit) ∧
      exit.process.files.entry = none ∧
      Undone (undisturbed fullDisk) ⟨false, true⟩ (idleProcess Pidfile.staleFiles) exit := by
  have hrun : ∃ exit, cliPrepare 34 (undisturbed fullDisk) ⟨false, true⟩ 1
      (idleProcess Pidfile.staleFiles) = some (none, exit) ∧ exit.process.files.entry = none :=
    ⟨_, rfl, rfl⟩
  obtain ⟨exit, h, hentry⟩ := hrun
  refine ⟨exit, h, hentry, (cli_prepare_undone rfl rfl h).mpr ?_⟩
  rintro ⟨-, -, -, -, -, hfails⟩
  exact Bool.false_ne_true hfails

def noFiles : Files := ⟨none, fun _ => none⟩

/-- There is no pidfile; one is created, and its `fstat` fails. -/
def statOverflow : List PidfileEvent :=
  [.call (.fails .enoent), .call (.created ⟨1, 7⟩), .call (.fails .eoverflow)]

/-- The created file stays at the path, though nobody has replaced it and nothing would keep the
cleanup from removing it. -/
theorem cli_prepare_misses : ∃ exit,
    cliPrepare 34 (undisturbed statOverflow) ⟨false, true⟩ 1 (idleProcess noFiles) =
        some (none, exit) ∧
      Pidfile.Did exit.trace (.created ⟨1, 7⟩) ∧
      exit.process.files.entry = some (.inode ⟨1, 7⟩) ∧
      exit.process.files.node ⟨1, 7⟩ = some (.regular []) ∧
      ¬ Undone (undisturbed statOverflow) ⟨false, true⟩ (idleProcess noFiles) exit := by
  have hrun : ∃ exit, cliPrepare 34 (undisturbed statOverflow) ⟨false, true⟩ 1
      (idleProcess noFiles) = some (none, exit) ∧ Pidfile.Did exit.trace (.created ⟨1, 7⟩) ∧
        exit.process.files.entry = some (.inode ⟨1, 7⟩) ∧
        exit.process.files.node ⟨1, 7⟩ = some (.regular []) :=
    ⟨_, rfl, ⟨_, .tail _ (.head _), rfl⟩, rfl, rfl⟩
  obtain ⟨exit, h, hcreated, hentry, hnode⟩ := hrun
  refine ⟨exit, h, hcreated, hentry, hnode, fun hundone => ?_⟩
  exact hundone.removed rfl rfl rfl ⟨1, 7⟩ (.inl hcreated) hentry

end Runs

end CliPrepare

end Iperf3Rs
