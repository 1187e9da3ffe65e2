import Iperf3Rs.PidfileCall

/-! One call of `iperf3rs_pidfile_checked`, whatever the system calls answer and whatever others
put at the path between the two opens. What the call has found out is read off the trace. -/

namespace Iperf3Rs

namespace Pidfile

/-- A step of the call, with what it has done, or a replacement by someone else. -/
structure Transition where
  before : Files
  event : Option Event
  after : Files

def Transition.own (t : Transition) : Prop := t.event.isSome = true

/-- The first open is behind, the second ahead. -/
def Pc.betweenOpens : Pc → Bool
  | .statRead _ | .read _ | .readExtra _ _ | .probe _ | .closeRead _ | .openWrite _ => true
  | _ => false

def Pc.readFd : Pc → Option Identity
  | .statRead fd | .read fd | .readExtra fd _ => some fd
  | .probe observed | .closeRead observed => some observed.id
  | _ => none

/-- The runs of a call. A replacement may leave anything at the path and do anything to other
files; an inode that the call holds open stays what it is. -/
inductive Run (observe : Observer) (caller : ℕ) : List Transition → Files → Call → Prop
  | start (files : Files) : Run observe caller [] files .start
  | call {trace : List Transition} {files files' : Files} {c c' : Call} {event : Event}
      (outcome : Outcome) (h : Run observe caller trace files c)
      (hstep : c.step observe caller files outcome = some (files', event, c')) :
      Run observe caller (trace ++ [⟨files, some event, files'⟩]) files' c'
  | replaced {trace : List Transition} {files : Files} {c : Call} (files' : Files)
      (h : Run observe caller trace files c) (hbetween : c.pc.betweenOpens = true)
      (hopen : ∀ fd, c.pc.readFd = some fd → files'.node fd = files.node fd) :
      Run observe caller (trace ++ [⟨files, none, files'⟩]) files' c

/-- The whole of `bytes` is the decimal number `pid`, with a newline behind it or not. -/
def NamesPid (bytes : List UInt8) (pid : ℕ) : Prop :=
  0 < pid ∧ ∃ digits, digits ≠ [] ∧ (∀ b ∈ digits, isDigit b = true) ∧ decimal digits = pid ∧
    (bytes = digits ∨ bytes = digits ++ [newline])

theorem namesPid_of_parse {buf : List UInt8} {pid : ℕ} (h : parsePid buf = some pid) :
    NamesPid buf pid := by
  have hshape : ∃ digits, (if buf.getLast? = some newline then buf.dropLast else buf) = digits ∧
      (buf = digits ∨ buf = digits ++ [newline]) := by
    by_cases hlast : buf.getLast? = some newline
    · refine ⟨buf.dropLast, if_pos hlast, .inr ?_⟩
      obtain ⟨init, rfl⟩ := List.getLast?_eq_some_iff.mp hlast
      rw [List.dropLast_concat]
    · exact ⟨buf, if_neg hlast, .inl rfl⟩
  obtain ⟨digits, hdigits, hbuf⟩ := hshape
  simp only [parsePid, hdigits] at h
  split at h
  · cases h
  · next hne =>
    split at h
    · cases h
    · next hall =>
      simp only [Bool.not_eq_true', Bool.not_eq_false] at hall
      split at h
      · cases h
      · next hrange =>
        cases h
        simp only [not_or] at hrange
        exact ⟨Nat.pos_of_ne_zero hrange.2.1, digits, hne, List.all_eq_true.mp hall, rfl, hbuf⟩

section Facts

variable (observe : Observer) (trace : List Transition)

def Happened (p : Transition → Prop) : Prop := ∃ t ∈ trace, p t

def Did (event : Event) : Prop := Happened trace (·.event = some event)

def Statted (id : Identity) : Prop :=
  Happened trace fun t =>
    t.event = some (.statted id) ∧ ∃ bytes, t.before.node id = some (.regular bytes)

/-- The file has been read to its end, and it names the pid. -/
def ReadWhole (observed : Observed) : Prop :=
  Statted trace observed.id ∧ ∃ bytes, NamesPid bytes observed.pid ∧
    Happened trace fun t => t.event = some (.readWhole observed.id bytes) ∧
      t.before.node observed.id = some (.regular bytes)

/-- There is no process of the pid in the file. Only the observer of the tests can claim so
without `kill`. -/
def Stale (observed : Observed) : Prop :=
  ReadWhole trace observed ∧
    (Did trace (.noSuchProcess observed.pid) ∨ observe 3 = some .esrch)

/-- The call has found the file to be regular and to name a process that is gone, and has opened
this same file for writing. -/
def Judged (id : Identity) : Prop :=
  ∃ pid, Stale observe trace ⟨id, pid⟩ ∧ Did trace (.opened id)

end Facts

section Monotone

variable {observe : Observer} {trace : List Transition} (t : Transition)

theorem Happened.append {p : Transition → Prop} (h : Happened trace p) :
    Happened (trace ++ [t]) p := by
  obtain ⟨s, hs, h⟩ := h
  exact ⟨s, List.mem_append_left _ hs, h⟩

theorem Happened.last {p : Transition → Prop} {t : Transition} (h : p t) :
    Happened (trace ++ [t]) p :=
  ⟨t, List.mem_append_right _ List.mem_cons_self, h⟩

theorem ReadWhole.append {observed : Observed} (h : ReadWhole trace observed) :
    ReadWhole (trace ++ [t]) observed := by
  obtain ⟨hstat, bytes, hbytes, hread⟩ := h
  exact ⟨hstat.append t, bytes, hbytes, hread.append t⟩

theorem Stale.append {observed : Observed} (h : Stale observe trace observed) :
    Stale observe (trace ++ [t]) observed := by
  obtain ⟨hread, hgone | hinjected⟩ := h
  · exact ⟨hread.append t, .inl (hgone.append t)⟩
  · exact ⟨hread.append t, .inr hinjected⟩

end Monotone

/-- What is known at each system call. -/
def PcFacts (observe : Observer) (caller : ℕ) (trace : List Transition) (files : Files)
    (c : Call) : Prop :=
  match c.pc with
  | .openRead | .statRead _ | .openWrite none => c.owned = false
  | .read fd => c.owned = false ∧ Statted trace fd
  | .readExtra fd buf => c.owned = false ∧ Statted trace fd ∧
      ∃ bytes, files.node fd = some (.regular bytes) ∧ buf <+: bytes
  | .probe observed => c.owned = false ∧ ReadWhole trace observed
  | .closeRead observed | .openWrite (some observed) =>
    c.owned = false ∧ Stale observe trace observed
  | .statWrite fd none =>
    c.owned = false ∧ Did trace (.created fd) ∧ files.node fd = some (.regular [])
  | .statWrite fd (some observed) =>
    c.owned = false ∧ Stale observe trace observed ∧ Did trace (.opened fd)
  | .truncate observed => c.owned = false ∧ Stale observe trace observed ∧
      Did trace (.opened observed.id) ∧ c.identity = some observed.id
  | .write fd => c.owned = true ∧ c.identity = some fd ∧ files.node fd = some (.regular []) ∧
      (Did trace (.created fd) ∨ Judged observe trace fd)
  | .closeWrite fd => c.owned = true ∧ c.identity = some fd ∧ Did trace (.wrote fd) ∧
      files.node fd = some (.regular (pidText caller))
  | .returned (.ok ()) => c.owned = true ∧ ∃ fd, c.identity = some fd ∧ Did trace (.wrote fd) ∧
      files.node fd = some (.regular (pidText caller))
  | .returned (.error _) => True

/-- A step that leaves every file that is there, and the path unless nothing is there. -/
def Transition.Harmless (t : Transition) : Prop :=
  (∀ id, t.before.node id ≠ none → t.after.node id = t.before.node id) ∧
    (t.before.entry ≠ none → t.after.entry = t.before.entry)

/-- A step that makes a file or changes the path makes an empty file where there is none. -/
def Transition.CreatesOnly (t : Transition) : Prop :=
  (t.after.entry ≠ t.before.entry ∨ ∃ id, t.before.node id = none ∧ t.after.node id ≠ none) →
    t.before.entry = none ∧ ∃ id, t.before.node id = none ∧ t.after = t.before.create id

/-- The changes a step makes, given what has happened before it. -/
def Transition.Justified (observe : Observer) (trace : List Transition) (t : Transition) : Prop :=
  ∀ id, t.before.node id ≠ none → t.after.node id ≠ t.before.node id →
    Did trace (.created id) ∨ Judged observe trace id

structure CheckedInv (observe : Observer) (caller : ℕ) (trace : List Transition) (files : Files)
    (c : Call) : Prop where
  facts : PcFacts observe caller trace files c
  justified : ∀ pre t post, trace = pre ++ t :: post → t.own → t.Justified observe pre
  creates : ∀ t ∈ trace, t.own → t.CreatesOnly
  unowned : c.owned = false → ∀ t ∈ trace, t.own → t.Harmless

variable {observe : Observer} {caller : ℕ} {trace : List Transition} {files files' : Files}
  {c c' : Call} {outcome : Outcome} {event : Event}

theorem Files.setNode_of_ne (files : Files) {fd id : Identity} (h : id ≠ fd)
    (node : Option Node) : (files.setNode fd node).node id = files.node id :=
  Function.update_of_ne h _ _

theorem Files.setNode_self (files : Files) (fd : Identity) (node : Option Node) :
    (files.setNode fd node).node fd = node :=
  Function.update_self _ _ _

theorem Files.create_of_ne (files : Files) {new id : Identity} (h : id ≠ new) :
    (files.create new).node id = files.node id :=
  Function.update_of_ne h _ _

theorem Call.Steps.creates (h : Call.Steps observe caller files c outcome files' event c') :
    Transition.CreatesOnly ⟨files, some event, files'⟩ := by
  have hset : ∀ (fd : Identity) (bytes bytes' : List UInt8),
      files.node fd = some (.regular bytes) →
      Transition.CreatesOnly ⟨files, some event, files.setNode fd (some (.regular bytes'))⟩ := by
    rintro fd bytes bytes' hnode (hentry | ⟨id, hnone, hsome⟩)
    · exact absurd rfl hentry
    · by_cases hid : id = fd
      · subst hid
        cases hnode.symm.trans hnone
      · exact absurd ((files.setNode_of_ne hid _).trans hnone) hsome
  have hsame : Transition.CreatesOnly ⟨files, some event, files⟩ := by
    rintro (hentry | ⟨id, hnone, hsome⟩)
    · exact absurd rfl hentry
    · exact absurd hnone hsome
  cases h with
  | created id hpc hentry hnode => exact fun _ => ⟨hentry, id, hnode, rfl⟩
  | truncated observed bytes hpc hnode => exact hset _ _ _ hnode
  | wrote fd bytes hpc hnode => exact hset _ _ _ hnode
  | stoppedShort fd bytes count hpc hnode => exact hset _ _ _ hnode
  | _ => exact hsame

theorem Call.Steps.justified (h : Call.Steps observe caller files c outcome files' event c')
    (hfacts : PcFacts observe caller trace files c) :
    Transition.Justified observe trace ⟨files, some event, files'⟩ := by
  have hset : ∀ (fd : Identity) (node : Node),
      Did trace (.created fd) ∨ Judged observe trace fd →
      Transition.Justified observe trace ⟨files, some event, files.setNode fd (some node)⟩ := by
    intro fd node hjudged id hid hchange
    by_cases heq : id = fd
    · exact heq ▸ hjudged
    · exact absurd (files.setNode_of_ne heq _) hchange
  cases h with
  | created new hpc hentry hnode =>
    intro id hid hchange
    have hne : id ≠ new := by
      rintro rfl
      exact hid hnode
    exact absurd (files.create_of_ne hne) hchange
  | truncated observed bytes hpc hnode =>
    simp only [PcFacts, hpc] at hfacts
    exact hset _ _ (.inr ⟨observed.pid, hfacts.2.1, hfacts.2.2.1⟩)
  | wrote fd bytes hpc hnode =>
    simp only [PcFacts, hpc] at hfacts
    exact hset _ _ hfacts.2.2.2
  | stoppedShort fd bytes count hpc hnode =>
    simp only [PcFacts, hpc] at hfacts
    exact hset _ _ hfacts.2.2.2
  | _ => exact fun id hid hchange => absurd rfl hchange

theorem Call.Steps.owned_mono (h : Call.Steps observe caller files c outcome files' event c')
    (howned : c.owned = true) : c'.owned = true := by
  cases h with
  | fresh | truncated => rfl
  | _ => exact howned

theorem Call.Steps.harmless (h : Call.Steps observe caller files c outcome files' event c')
    (hfacts : PcFacts observe caller trace files c) (howned : c'.owned = false) :
    Transition.Harmless ⟨files, some event, files'⟩ := by
  cases h with
  | created new hpc hentry hnode =>
    refine ⟨fun id hid => files.create_of_ne ?_, fun hsome => absurd hentry hsome⟩
    rintro rfl
    exact hid hnode
  | truncated => cases howned
  | wrote fd bytes hpc hnode =>
    simp only [PcFacts, hpc] at hfacts
    cases hfacts.1.symm.trans howned
  | stoppedShort fd bytes count hpc hnode =>
    simp only [PcFacts, hpc] at hfacts
    cases hfacts.1.symm.trans howned
  | _ => exact ⟨fun _ _ => rfl, fun _ => rfl⟩

/-- The second read finds the end of the file, so that the first one has returned all of it. -/
theorem readWhole_last {fd : Identity} {buf bytes : List UInt8} {pid : ℕ}
    (hstat : Statted trace fd)
    (hbuf : ∃ bytes, files.node fd = some (.regular bytes) ∧ buf <+: bytes)
    (hnode : files.node fd = some (.regular bytes)) (hlen : bytes.length ≤ buf.length)
    (hpid : parsePid buf = some pid) :
    ReadWhole (trace ++ [⟨files, some (.readWhole fd buf), files⟩]) ⟨fd, pid⟩ := by
  obtain ⟨bytes', hnode', hpre⟩ := hbuf
  cases hnode.symm.trans hnode'
  have hwhole : buf = bytes := hpre.eq_of_length_le hlen
  exact ⟨hstat.append _, buf, namesPid_of_parse hpid, .last ⟨rfl, hwhole ▸ hnode⟩⟩

theorem Call.Steps.facts (h : Call.Steps observe caller files c outcome files' event c')
    (hfacts : PcFacts observe caller trace files c) :
    PcFacts observe caller (trace ++ [⟨files, some event, files'⟩]) files' c' := by
  cases h with
  | failed e => trivial
  | mismatched e fd existed hpc => trivial
  | noFile hpc =>
    simp only [PcFacts, hpc] at hfacts
    exact hfacts
  | openedRead id node hpc hentry hnode =>
    simp only [PcFacts, hpc] at hfacts
    exact hfacts
  | statted fd bytes hpc hnode =>
    simp only [PcFacts, hpc] at hfacts
    exact ⟨hfacts, .last ⟨rfl, bytes, hnode⟩⟩
  | read fd bytes count hpc hnode =>
    simp only [PcFacts, hpc] at hfacts
    exact ⟨hfacts.1, hfacts.2.append _, bytes, hnode, List.take_prefix _ _⟩
  | readWhole fd buf bytes pid hpc hnode hlen hpid =>
    simp only [PcFacts, hpc] at hfacts
    exact ⟨hfacts.1, readWhole_last hfacts.2.1 hfacts.2.2 hnode hlen hpid⟩
  | injected fd buf bytes pid hpc hnode hlen hpid hobserve =>
    simp only [PcFacts, hpc] at hfacts
    exact ⟨hfacts.1, readWhole_last hfacts.2.1 hfacts.2.2 hnode hlen hpid, .inr hobserve⟩
  | noSuchProcess observed hpc houtcome =>
    simp only [PcFacts, hpc] at hfacts
    exact ⟨hfacts.1, hfacts.2.append _, .inl (.last rfl)⟩
  | closedRead observed hpc =>
    simp only [PcFacts, hpc] at hfacts
    exact ⟨hfacts.1, hfacts.2.append _⟩
  | openedWrite id node observed hpc hentry hnode =>
    simp only [PcFacts, hpc] at hfacts
    exact ⟨hfacts.1, hfacts.2.append _, .last rfl⟩
  | created id hpc hentry hnode =>
    simp only [PcFacts, hpc] at hfacts
    exact ⟨hfacts, .last rfl, Function.update_self _ _ _⟩
  | matched observed bytes hpc hnode =>
    simp only [PcFacts, hpc] at hfacts
    exact ⟨hfacts.1, hfacts.2.1.append _, hfacts.2.2.append _, rfl⟩
  | fresh fd bytes hpc hnode =>
    simp only [PcFacts, hpc] at hfacts
    exact ⟨rfl, rfl, hfacts.2.2, .inl (hfacts.2.1.append _)⟩
  | truncated observed bytes hpc hnode =>
    simp only [PcFacts, hpc] at hfacts
    obtain ⟨-, hstale, hopened, hid⟩ := hfacts
    exact ⟨rfl, hid, files.setNode_self _ _,
      .inr ⟨observed.pid, hstale.append _, hopened.append _⟩⟩
  | wrote fd bytes hpc hnode =>
    simp only [PcFacts, hpc] at hfacts
    obtain ⟨howned, hid, hempty, -⟩ := hfacts
    cases hnode.symm.trans hempty
    refine ⟨howned, hid, .last rfl, ?_⟩
    simp [Files.setNode_self]
  | stoppedShort => trivial
  | closed fd hpc =>
    simp only [PcFacts, hpc] at hfacts
    obtain ⟨howned, hid, hwrote, hnode⟩ := hfacts
    exact ⟨howned, fd, hid, hwrote.append _, hnode⟩

theorem checkedInv_start (files : Files) : CheckedInv observe caller [] files .start :=
  ⟨rfl, fun pre t post h => by simp at h, fun _ h => by (cases h), fun _ _ h => by (cases h)⟩

theorem forall_append_singleton {p : List Transition → Transition → Prop} {last : Transition}
    (h : ∀ pre t post, trace = pre ++ t :: post → p pre t) (hlast : p trace last) :
    ∀ pre t post, trace ++ [last] = pre ++ t :: post → p pre t := by
  intro pre t post htrace
  rcases List.eq_nil_or_concat post with rfl | ⟨post, x, rfl⟩
  · obtain ⟨rfl, hlast'⟩ := List.append_inj' htrace rfl
    cases hlast'
    exact hlast
  · rw [List.concat_eq_append, ← List.cons_append, ← List.append_assoc] at htrace
    exact h pre t post (List.append_inj' htrace rfl).1

theorem CheckedInv.call (h : CheckedInv observe caller trace files c)
    (hstep : c.step observe caller files outcome = some (files', event, c')) :
    CheckedInv observe caller (trace ++ [⟨files, some event, files'⟩]) files' c' := by
  have hs := Call.step_steps hstep
  refine ⟨hs.facts h.facts, ?_, fun t ht hown => ?_, fun howned t ht hown => ?_⟩
  · exact forall_append_singleton h.justified fun _ => hs.justified h.facts
  · rcases List.mem_append.mp ht with ht | ht
    · exact h.creates t ht hown
    · exact List.mem_singleton.mp ht ▸ hs.creates
  · rcases List.mem_append.mp ht with ht | ht
    · refine h.unowned ?_ t ht hown
      by_contra hc
      cases howned.symm.trans (hs.owned_mono (by simpa using hc))
    · exact List.mem_singleton.mp ht ▸ hs.harmless h.facts howned

theorem PcFacts.replaced (h : PcFacts observe caller trace files c)
    (hbetween : c.pc.betweenOpens = true)
    (hopen : ∀ fd, c.pc.readFd = some fd → files'.node fd = files.node fd) (t : Transition) :
    PcFacts observe caller (trace ++ [t]) files' c := by
  cases hpc : c.pc with
  | openRead | statWrite | truncate | write | closeWrite | returned =>
    simp [hpc, Pc.betweenOpens] at hbetween
  | statRead fd =>
    simp only [PcFacts, hpc] at h ⊢
    exact h
  | read fd =>
    simp only [PcFacts, hpc] at h ⊢
    exact ⟨h.1, h.2.append t⟩
  | readExtra fd buf =>
    simp only [PcFacts, hpc] at h ⊢
    exact ⟨h.1, h.2.1.append t, by rw [hopen fd (by rw [hpc]; rfl)]; exact h.2.2⟩
  | probe observed =>
    simp only [PcFacts, hpc] at h ⊢
    exact ⟨h.1, h.2.append t⟩
  | closeRead observed =>
    simp only [PcFacts, hpc] at h ⊢
    exact ⟨h.1, h.2.append t⟩
  | openWrite existed =>
    cases existed with
    | none =>
      simp only [PcFacts, hpc] at h ⊢
      exact h
    | some observed =>
      simp only [PcFacts, hpc] at h ⊢
      exact ⟨h.1, h.2.append t⟩

theorem CheckedInv.replaced (h : CheckedInv observe caller trace files c)
    (hbetween : c.pc.betweenOpens = true)
    (hopen : ∀ fd, c.pc.readFd = some fd → files'.node fd = files.node fd) :
    CheckedInv observe caller (trace ++ [⟨files, none, files'⟩]) files' c := by
  have hother : ¬ Transition.own ⟨files, none, files'⟩ := fun hown => by cases hown
  refine ⟨h.facts.replaced hbetween hopen _, ?_, fun t ht hown => ?_, fun howned t ht hown => ?_⟩
  · exact forall_append_singleton h.justified fun hown => absurd hown hother
  · rcases List.mem_append.mp ht with ht | ht
    · exact h.creates t ht hown
    · exact absurd (List.mem_singleton.mp ht ▸ hown) hother
  · rcases List.mem_append.mp ht with ht | ht
    · exact h.unowned howned t ht hown
    · exact absurd (List.mem_singleton.mp ht ▸ hown) hother

theorem Run.inv (h : Run observe caller trace files c) :
    CheckedInv observe caller trace files c := by
  induction h with
  | start files => exact checkedInv_start files
  | call outcome _ hstep ih => exact ih.call hstep
  | replaced files' _ hbetween hopen ih => exact ih.replaced hbetween hopen

/-- In every run of a call: a file that was there is only changed if the call has found that same
inode to be a regular file naming a process that is gone, and has opened it for writing; a file is
only made where there is none; a call that returns without owning the pidfile returns an error and
has changed nothing that was there; and a call that returns 0 owns the file it has written, which
holds its pid. -/
theorem pidfile_checked (h : Run observe caller trace files c) :
    (∀ pre t post, trace = pre ++ t :: post → t.own → t.Justified observe pre) ∧
      (∀ t ∈ trace, t.own → t.CreatesOnly) ∧
      (∀ result, c.pc = .returned result → c.owned = false →
        (∃ e, result = .error e) ∧ ∀ t ∈ trace, t.own → t.Harmless) ∧
      (c.pc = .returned (.ok ()) → c.owned = true ∧ ∃ id, c.identity = some id ∧
        Did trace (.wrote id) ∧ files.node id = some (.regular (pidText caller))) := by
  have hinv := h.inv
  refine ⟨hinv.justified, hinv.creates, fun result hpc howned => ⟨?_, hinv.unowned howned⟩,
    fun hpc => ?_⟩
  · cases result with
    | error e => exact ⟨e, rfl⟩
    | ok =>
      have hfacts := hinv.facts
      simp only [PcFacts, hpc] at hfacts
      cases howned.symm.trans hfacts.1
  · have hfacts := hinv.facts
    simp only [PcFacts, hpc] at hfacts
    exact hfacts

theorem pidfile_checked_stale : ∃ trace files c, Run .null 34 trace files c ∧
    c.pc = .returned (.ok ()) ∧ c.owned = true ∧ ∃ id, c.identity = some id ∧
      Did trace (.wrote id) ∧ files.node id = some (.regular (pidText 34)) := by
  have h₀ : Run .null 34 [] staleFiles .start := .start staleFiles
  have h₁ := ((h₀.call .ok rfl).call .ok rfl).call (.took 3) rfl
  have h₂ := ((h₁.call .ok rfl).call (.fails .esrch) rfl).call .ok rfl
  have h₃ := ((h₂.call .ok rfl).call .ok rfl).call .ok rfl
  have h₄ := (h₃.call (.took 2) rfl).call .ok rfl
  exact ⟨_, _, _, h₄, rfl, (pidfile_checked h₄).2.2.2 rfl⟩

end Pidfile

end Iperf3Rs
