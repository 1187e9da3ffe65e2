import Iperf3Rs.PidfileRace
import Mathlib.Data.Bool.Basic

/-! Of two processes at most one owns the pidfile, as long as no process truncates a pidfile that
has changed hands since it was read and no write stops short while the other is there. -/

namespace Iperf3Rs

namespace Pidfile

theorem isDigit_of_char {c : Char} (h : c.isDigit = true) :
    ∃ b, String.utf8EncodeChar c = [b] ∧ isDigit b = true ∧ b.toNat - 48 = c.toNat - '0'.toNat := by
  have htable : ∀ n < 58, 48 ≤ n → ∃ b, String.utf8EncodeChar (Char.ofNat n) = [b] ∧
      isDigit b = true ∧ b.toNat - 48 = (Char.ofNat n).toNat - '0'.toNat := by
    intro n hlt hle
    refine ⟨UInt8.ofNat n, ?_, ?_, ?_⟩
    all_goals
      revert n
      decide
  simp only [Char.isDigit, Bool.and_eq_true, decide_eq_true_eq] at h
  have hlow : 48 ≤ c.toNat := h.1
  have hhigh : c.toNat ≤ 57 := h.2
  have hc := htable c.toNat (by omega) hlow
  rwa [Char.ofNat_toNat] at hc

theorem digits_of_chars {chars : List Char} (h : ∀ c ∈ chars, c.isDigit = true) (n : ℕ) :
    (∀ b ∈ chars.flatMap String.utf8EncodeChar, isDigit b = true) ∧
      (chars.flatMap String.utf8EncodeChar).foldl (fun n b => 10 * n + (b.toNat - 48)) n =
        chars.foldl (fun n c => 10 * n + (c.toNat - '0'.toNat)) n := by
  induction chars generalizing n with
  | nil => exact ⟨fun _ hb => by (cases hb), rfl⟩
  | cons c chars ih =>
    obtain ⟨b, hbytes, hdigit, hvalue⟩ := isDigit_of_char (h c List.mem_cons_self)
    obtain ⟨hall, hfold⟩ := ih (fun d hd => h d (List.mem_cons_of_mem _ hd))
      (10 * n + (c.toNat - '0'.toNat))
    rw [List.flatMap_cons, hbytes, List.singleton_append]
    refine ⟨fun x hx => ?_, ?_⟩
    · rcases List.mem_cons.mp hx with rfl | hx
      · exact hdigit
      · exact hall x hx
    · rw [List.foldl_cons, List.foldl_cons, hvalue, hfold]

theorem isDigit_pidText (pid : ℕ) : ∀ b ∈ pidText pid, isDigit b = true :=
  (digits_of_chars (Text.isDigit_toString pid) 0).1

theorem decimal_pidText (pid : ℕ) : decimal (pidText pid) = pid :=
  (digits_of_chars (Text.isDigit_toString pid) 0).2.trans (Text.decimal_toString pid)

theorem parsePid_pidText {pid : ℕ} (hpos : 0 < pid) (hlt : pid < 2 ^ 31) :
    parsePid (pidText pid) = some pid := by
  have hlast : (pidText pid).getLast? ≠ some newline := by
    intro h
    have hdigit := isDigit_pidText pid newline (List.mem_of_getLast? h)
    cases hdigit
  have hne : pidText pid ≠ [] := by
    intro h
    have hvalue := decimal_pidText pid
    rw [h] at hvalue
    exact absurd hvalue.symm (Nat.pos_iff_ne_zero.mp hpos)
  have hall : (pidText pid).all isDigit = true := List.all_eq_true.mpr (isDigit_pidText pid)
  have hcast : Int.bmod pid (2 ^ 32) = pid := by
    rw [Int.bmod_eq_of_le] <;> omega
  have hrange : ¬ (2 ^ 63 ≤ pid ∨ pid = 0 ∨ (pid : Int) ≤ 0 ∨ (pid : Int) ≠ pid) := by
    simp only [not_or, ne_eq, not_true, not_false_eq_true, and_true]
    omega
  simp only [parsePid, hlast, if_false, hne, hall, Bool.not_true, Bool.false_eq_true,
    decimal_pidText, hcast, hrange]

def Pc.gone : Pc → Option Observed
  | .closeRead observed | .openWrite (some observed) | .statWrite _ (some observed)
  | .truncate observed => some observed
  | _ => none

def Pc.aimed : Pc → Option Identity
  | .statWrite fd (some _) => some fd
  | .truncate observed => some observed.id
  | _ => none

def Pc.late : Pc → Bool
  | .write _ | .closeWrite _ | .returned _ => true
  | _ => false

def Content (own : ℕ) (files : Files) (fd : Identity) : Prop :=
  ∃ bytes, files.node fd = some (.regular bytes) ∧ (bytes = [] ∨ bytes = pidText own)

/-- The call has made the file at the path, or has emptied it. -/
def Call.Holds (c : Call) : Prop := c.owned = true ∨ ∃ fd, c.pc = .statWrite fd none

/-- What holds of a call of `own` while neither process has ended or cleaned up. -/
structure ProcFacts (own peer : ℕ) (files : Files) (c : Call) : Prop where
  gone : ∀ observed, c.pc.gone = some observed → observed.pid ≠ peer
  aimed : ∀ fd, c.pc.aimed = some fd → files.entry = some (.inode fd)
  created : ∀ fd, c.pc = .statWrite fd none →
    files.entry = some (.inode fd) ∧ files.node fd = some (.regular [])
  matched : ∀ observed, c.pc = .truncate observed → c.identity = some observed.id
  writing : ∀ fd, c.pc = .write fd ∨ c.pc = .closeWrite fd →
    c.owned = true ∧ c.identity = some fd
  late : c.owned = true → c.pc.late = true
  owned : c.owned = true → ∃ fd, c.identity = some fd ∧ files.entry = some (.inode fd) ∧
    Content own files fd

section Call

variable {own peer : ℕ} {files files' : Files} {c c' d d' : Call} {outcome : Outcome}
  {event : Event}

theorem procFacts_start (files : Files) : ProcFacts own peer files .start := by
  constructor <;> simp [Call.start, Pc.gone, Pc.aimed]

theorem ProcFacts.unowned (h : ProcFacts own peer files c) (hpc : c.pc.late = false) :
    ¬ c.owned = true := by
  intro howned
  cases hpc.symm.trans (h.late howned)

/-- Facts about the program counter alone; the rest is unchanged and nothing is owned. -/
theorem ProcFacts.goTo (h : ProcFacts own peer files c) {pc : Pc} (hlate : c.pc.late = false)
    (hgone : ∀ observed, pc.gone = some observed → observed.pid ≠ peer)
    (haimed : ∀ fd, pc.aimed = some fd → files.entry = some (.inode fd))
    (hpc : ∀ fd, pc ≠ .statWrite fd none ∧ pc ≠ .write fd ∧ pc ≠ .closeWrite fd)
    (hmatched : ∀ observed, pc = .truncate observed → c.identity = some observed.id) :
    ProcFacts own peer files { c with pc := pc } where
  gone := hgone
  aimed := haimed
  created fd he := absurd he (hpc fd).1
  matched := hmatched
  writing fd he := absurd he (by simp [hpc fd])
  late howned := absurd howned (h.unowned hlate)
  owned howned := absurd howned (h.unowned hlate)

theorem ProcFacts.fail (h : ProcFacts own peer files c) (e : Errno) :
    ProcFacts own peer files (c.fail e) where
  gone := by simp [Call.fail, Pc.gone]
  aimed := by simp [Call.fail, Pc.aimed]
  created := by simp [Call.fail]
  matched := by simp [Call.fail]
  writing := by simp [Call.fail]
  late _ := rfl
  owned := h.owned

theorem ProcFacts.step (h : ProcFacts own peer files c)
    (hs : Call.Steps .null own files c outcome files' event c')
    (hkill : ∀ observed, c.pc = .probe observed → outcome = .fails .esrch → observed.pid ≠ peer)
    (hfull : ∀ fd count, c.pc = .write fd → outcome = .took count →
      (pidText own).length ≤ count) :
    ProcFacts own peer files' c' := by
  cases hs with
  | failed e => exact h.fail e
  | mismatched e fd existed hpc =>
    have howned := h.unowned (by rw [hpc]; rfl)
    constructor <;> simp [Call.fail, Pc.gone, Pc.aimed, howned]
  | noFile hpc =>
    exact h.goTo (by rw [hpc]; rfl) (by simp [Pc.gone]) (by simp [Pc.aimed]) (by simp) (by simp)
  | openedRead id node hpc =>
    exact h.goTo (by rw [hpc]; rfl) (by simp [Pc.gone]) (by simp [Pc.aimed]) (by simp) (by simp)
  | statted fd bytes hpc =>
    exact h.goTo (by rw [hpc]; rfl) (by simp [Pc.gone]) (by simp [Pc.aimed]) (by simp) (by simp)
  | read fd bytes count hpc =>
    exact h.goTo (by rw [hpc]; rfl) (by simp [Pc.gone]) (by simp [Pc.aimed]) (by simp) (by simp)
  | readWhole fd buf bytes pid hpc =>
    exact h.goTo (by rw [hpc]; rfl) (by simp [Pc.gone]) (by simp [Pc.aimed]) (by simp) (by simp)
  | injected fd buf bytes pid hpc hnode hlen hpid hobserve => cases hobserve
  | noSuchProcess observed hpc houtcome =>
    refine h.goTo (by rw [hpc]; rfl) ?_ (by simp [Pc.aimed]) (by simp) (by simp)
    intro found hfound
    cases hfound
    exact hkill observed hpc houtcome
  | closedRead observed hpc =>
    refine h.goTo (by rw [hpc]; rfl) ?_ (by simp [Pc.aimed]) (by simp) (by simp)
    intro found hfound
    cases hfound
    exact h.gone observed (by rw [hpc]; rfl)
  | openedWrite id node observed hpc hentry =>
    refine h.goTo (by rw [hpc]; rfl) ?_ ?_ (by simp) (by simp)
    · intro found hfound
      cases hfound
      exact h.gone observed (by rw [hpc]; rfl)
    · intro fd hfd
      cases hfd
      exact hentry
  | created id hpc hentry hnode =>
    have howned := h.unowned (by rw [hpc]; rfl)
    refine ⟨by simp [Pc.gone], by simp [Pc.aimed], fun fd he => ?_, by simp, by simp, ?_, ?_⟩
    · cases he
      exact ⟨rfl, Function.update_self _ _ _⟩
    · exact fun hc => absurd hc howned
    · exact fun hc => absurd hc howned
  | matched observed bytes hpc hnode =>
    have howned := h.unowned (by rw [hpc]; rfl)
    refine ⟨?_, ?_, by simp, ?_, by simp, fun hc => absurd hc howned, fun hc => absurd hc howned⟩
    · intro found hfound
      cases hfound
      exact h.gone observed (by rw [hpc]; rfl)
    · intro fd hfd
      cases hfd
      exact h.aimed observed.id (by rw [hpc]; rfl)
    · intro found hfound
      cases hfound
      rfl
  | fresh fd bytes hpc hnode =>
    obtain ⟨hentry, hempty⟩ := h.created fd hpc
    refine ⟨by simp [Pc.gone], by simp [Pc.aimed], by simp, by simp, fun fd' he => ?_,
      fun _ => rfl, fun _ => ⟨fd, rfl, hentry, [], hempty, .inl rfl⟩⟩
    rcases he with he | he
    · cases he
      exact ⟨rfl, rfl⟩
    · cases he
  | truncated observed bytes hpc hnode =>
    have hid := h.matched observed hpc
    refine ⟨by simp [Pc.gone], by simp [Pc.aimed], by simp, by simp, fun fd he => ?_,
      fun _ => rfl, fun _ => ⟨observed.id, hid, ?_, [], Function.update_self _ _ _, .inl rfl⟩⟩
    · rcases he with he | he
      · cases he
        exact ⟨rfl, hid⟩
      · cases he
    · exact h.aimed observed.id (by rw [hpc]; rfl)
  | wrote fd bytes hpc hnode =>
    obtain ⟨howned, hid⟩ := h.writing fd (.inl hpc)
    obtain ⟨fd', hid', hentry, bytes', hnode', hbytes⟩ := h.owned howned
    cases hid.symm.trans hid'
    cases hnode.symm.trans hnode'
    refine ⟨by simp [Pc.gone], by simp [Pc.aimed], by simp, by simp, fun fd' he => ?_,
      fun _ => rfl, fun _ => ⟨fd, hid, hentry, _, Function.update_self _ _ _, .inr ?_⟩⟩
    · rcases he with he | he
      · cases he
      · cases he
        exact ⟨howned, hid⟩
    · rcases hbytes with rfl | rfl <;> simp
  | stoppedShort fd bytes count hpc hnode houtcome hshort =>
    exact absurd (hfull fd count hpc houtcome) (by omega)
  | closed fd hpc =>
    obtain ⟨howned, -⟩ := h.writing fd (.inr hpc)
    exact ⟨by simp [Pc.gone], by simp [Pc.aimed], by simp, by simp, by simp, fun _ => rfl,
      fun _ => h.owned howned⟩

theorem ProcFacts.holds (h : ProcFacts own peer files c) (hc : c.Holds) :
    ∃ fd, files.entry = some (.inode fd) ∧ Content own files fd := by
  rcases hc with howned | ⟨fd, hpc⟩
  · obtain ⟨fd, -, hentry, hcontent⟩ := h.owned howned
    exact ⟨fd, hentry, hcontent⟩
  · obtain ⟨hentry, hnode⟩ := h.created fd hpc
    exact ⟨fd, hentry, [], hnode, .inl rfl⟩

/-- The same facts on other files, as long as a path is kept and the file of a holder is kept or
emptied. -/
theorem ProcFacts.frame (h : ProcFacts own peer files c)
    (hentry : files.entry ≠ none → files'.entry = files.entry)
    (hnode : c.Holds → ∀ fd, files.entry = some (.inode fd) →
      files'.node fd = files.node fd ∨ files'.node fd = some (.regular [])) :
    ProcFacts own peer files' c := by
  have hpath : ∀ fd, files.entry = some (.inode fd) → files'.entry = some (.inode fd) := by
    intro fd he
    rw [hentry (by simp [he]), he]
  refine ⟨h.gone, fun fd he => hpath fd (h.aimed fd he), fun fd he => ?_, h.matched, h.writing,
    h.late, fun howned => ?_⟩
  · obtain ⟨hfd, hempty⟩ := h.created fd he
    refine ⟨hpath fd hfd, ?_⟩
    rcases hnode (.inr ⟨fd, he⟩) fd hfd with hkept | hcut
    · rw [hkept, hempty]
    · exact hcut
  · obtain ⟨fd, hid, hfd, bytes, hbytes, hcontent⟩ := h.owned howned
    refine ⟨fd, hid, hpath fd hfd, ?_⟩
    rcases hnode (.inl howned) fd hfd with hkept | hcut
    · exact ⟨bytes, hkept.trans hbytes, hcontent⟩
    · exact ⟨[], hcut, .inl rfl⟩

/-- What a step of the other process leaves of the facts. -/
theorem ProcFacts.other_step (h : ProcFacts own peer files c) (hd : ProcFacts peer own files d)
    (hex : ¬ (c.Holds ∧ d.Holds))
    (hs : Call.Steps .null peer files d outcome files' event d') :
    ProcFacts own peer files' c := by
  have hwriting : ∀ fd, d.pc = .write fd → ∀ bytes,
      ProcFacts own peer (files.setNode fd (some (.regular bytes))) c := by
    intro fd hpc bytes
    have howned := (hd.writing fd (.inl hpc)).1
    exact h.frame (fun _ => rfl) fun hc => absurd ⟨hc, .inl howned⟩ hex
  cases hs with
  | created id hpc hentry hnode =>
    refine h.frame (fun hsome => absurd hentry hsome) fun _ fd he => ?_
    cases hentry.symm.trans he
  | truncated observed bytes hpc hnode =>
    refine h.frame (fun _ => rfl) fun _ fd _ => ?_
    by_cases hid : fd = observed.id
    · subst hid
      exact .inr (Function.update_self _ _ _)
    · exact .inl (Function.update_of_ne hid _ _)
  | wrote fd bytes hpc hnode => exact hwriting fd hpc _
  | stoppedShort fd bytes count hpc hnode => exact hwriting fd hpc _
  | _ => exact h

/-- A call comes to hold the file by creating it or by emptying it. -/
theorem Call.Steps.holds {observe : Observer}
    (hs : Call.Steps observe own files c outcome files' event c') (hc : c'.Holds) :
    c.Holds ∨ files.entry = none ∨
      ∃ observed, c.pc = .truncate observed ∧ outcome = .ok := by
  cases hs with
  | created id hpc hentry hnode => exact .inr (.inl hentry)
  | fresh fd bytes hpc hnode => exact .inl (.inr ⟨fd, hpc⟩)
  | truncated observed bytes hpc hnode houtcome => exact .inr (.inr ⟨observed, hpc, houtcome⟩)
  | _ =>
    rcases hc with hc | ⟨fd, hc⟩
    · exact .inl (.inl hc)
    · cases hc

/-- The truncation of a file that still names the process found gone is not one of a file that
the other process holds. -/
theorem ProcFacts.not_holds_of_truncate (h : ProcFacts own peer files c)
    (hd : ProcFacts peer own files d) (hpos : 0 < own) (hlt : own < 2 ^ 31) {observed : Observed}
    (hpc : d.pc = .truncate observed)
    (hstale : ∃ bytes, files.node observed.id = some (.regular bytes) ∧
      parsePid bytes = some observed.pid) : ¬ c.Holds := by
  intro hc
  obtain ⟨fd, hentry, bytes, hnode, hbytes⟩ := h.holds hc
  have haimed := hd.aimed observed.id (by rw [hpc]; rfl)
  cases hentry.symm.trans haimed
  obtain ⟨bytes', hnode', hparse⟩ := hstale
  cases hnode.symm.trans hnode'
  rcases hbytes with rfl | rfl
  · cases hparse
  · cases (parsePid_pidText hpos hlt).symm.trans hparse
    exact hd.gone observed (by rw [hpc]; rfl) rfl

end Call

/-- Both processes are there, and neither has cleaned up. -/
def Race.Contested (s : Race) : Prop :=
  ∀ p, (s.procs p).alive = true ∧ (s.procs p).cleanup ≠ .done

/-- The cleanup comes after the call, and only an owner looks at the path. -/
def Proc.Settled (proc : Proc) : Prop :=
  (proc.cleanup ≠ .before → ∃ result, proc.call.pc = .returned result) ∧
    (proc.cleanup = .lstat ∨ proc.cleanup = .unlink → proc.call.owned = true)

structure Race.Inv (pids : Pids) (s : Race) : Prop where
  settled : ∀ p, (s.procs p).Settled
  facts : s.Contested → ∀ p, ProcFacts (pids.pid p) (pids.pid !p) s.files (s.procs p).call
  exclusive : s.Contested → ∀ p, ¬ ((s.procs p).call.Holds ∧ (s.procs !p).call.Holds)

section Race

variable {pids : Pids} {s s' : Race} {action : Action}

theorem Race.setProc_self (s : Race) (p : Bool) (proc : Proc) :
    (s.setProc p proc).procs p = proc :=
  Function.update_self _ _ _

theorem Race.setProc_other (s : Race) (p : Bool) (proc : Proc) :
    (s.setProc p proc).procs (!p) = s.procs !p :=
  Function.update_of_ne (by simp) _ _

/-- A property of both processes after a step of `p`. -/
theorem Race.setProc_forall {motive : Bool → Proc → Prop} {p : Bool} {proc : Proc}
    (hself : motive p proc) (hother : motive (!p) (s.procs !p)) :
    ∀ q, motive q ((s.setProc p proc).procs q) := by
  intro q
  rcases Bool.eq_or_eq_not q p with rfl | rfl
  · rw [s.setProc_self]
    exact hself
  · rw [s.setProc_other]
    exact hother

theorem Race.Contested.of_setProc {p : Bool} {proc : Proc} (hc : (s.setProc p proc).Contested)
    (hp : proc.alive = true ∧ proc.cleanup ≠ .done →
      (s.procs p).alive = true ∧ (s.procs p).cleanup ≠ .done) : s.Contested := by
  intro q
  rcases Bool.eq_or_eq_not q p with rfl | rfl
  · have hq := hc q
    rw [Race.setProc_self] at hq
    exact hp hq
  · have hq := hc !p
    rwa [Race.setProc_other] at hq

theorem Race.inv_start (files : Files) : (Race.start files).Inv pids where
  settled p := ⟨fun hp => absurd rfl hp, fun hp => by rcases hp with hp | hp <;> cases hp⟩
  facts _ p := procFacts_start files
  exclusive _ p hp := by
    rcases hp.1 with hp | ⟨fd, hp⟩ <;> cases hp

theorem Race.Inv.called (h : s.Inv pids) {p : Bool} {outcome : Outcome} {files : Files}
    {event : Event} {call : Call} (hbefore : (s.procs p).cleanup = .before)
    (hkill : s.killAllowed pids (s.procs p).call.pc outcome)
    (hcall : Call.Steps .null (pids.pid p) s.files (s.procs p).call outcome files event call)
    (hcareful : s.Careful pids (.call p outcome)) :
    Race.Inv pids ({ s with files := files }.setProc p { s.procs p with call := call }) := by
  have hfacts : s.Contested → ProcFacts (pids.pid p) (pids.pid !p) files call ∧
      ProcFacts (pids.pid !p) (pids.pid p) files (s.procs !p).call := by
    intro hc
    have hown := h.facts hc p
    have hother := h.facts hc !p
    rw [Bool.not_not] at hother
    refine ⟨hown.step hcall ?_ (hcareful (hc !p).1 (hc !p).2).2, hother.other_step hown ?_ hcall⟩
    · intro observed hpc houtcome hpid
      have hdead := hkill observed hpc houtcome (!p) hpid.symm
      cases hdead.symm.trans (hc !p).1
    · exact fun hboth => h.exclusive hc p hboth.symm
  have hexclusive : s.Contested → ¬ (call.Holds ∧ (s.procs !p).call.Holds) := by
    rintro hc ⟨hholds, hpeer⟩
    have hown := h.facts hc p
    have hother := h.facts hc !p
    rw [Bool.not_not] at hother
    rcases hcall.holds hholds with hheld | hfree | ⟨observed, hpc, houtcome⟩
    · exact h.exclusive hc p ⟨hheld, hpeer⟩
    · obtain ⟨fd, hsome, -⟩ := hother.holds hpeer
      cases hfree.symm.trans hsome
    · exact hother.not_holds_of_truncate hown (pids.pos _) (pids.lt _) hpc
        ((hcareful (hc !p).1 (hc !p).2).1 observed hpc houtcome) hpeer
  refine ⟨?_, fun hc => ?_, fun hc q => ?_⟩
  · refine Race.setProc_forall (motive := fun _ proc => proc.Settled) ?_ (h.settled !p)
    exact ⟨fun hp => absurd hbefore hp,
      fun hp => by rw [hbefore] at hp; rcases hp with hp | hp <;> cases hp⟩
  · obtain ⟨hself, hpeer⟩ := hfacts (Race.Contested.of_setProc (s := { s with files := files }) hc id)
    exact Race.setProc_forall (motive := fun q proc =>
      ProcFacts (pids.pid q) (pids.pid !q) files proc.call) hself (by rwa [Bool.not_not])
  · have hex := hexclusive (Race.Contested.of_setProc (s := { s with files := files }) hc id)
    rcases Bool.eq_or_eq_not q p with rfl | rfl
    · rwa [Race.setProc_self, Race.setProc_other]
    · rw [Race.setProc_other, Bool.not_not, Race.setProc_self]
      exact fun hboth => hex hboth.symm

/-- A process goes on with its cleanup, or ends; the files and the calls are as they were. -/
theorem Race.Inv.left (h : s.Inv pids) {p : Bool} {proc : Proc}
    (hcall : proc.call = (s.procs p).call)
    (hcontested : proc.alive = true ∧ proc.cleanup ≠ .done →
      (s.procs p).alive = true ∧ (s.procs p).cleanup ≠ .done)
    (hsettled : proc.Settled) : (s.setProc p proc).Inv pids := by
  have hcalls : ∀ q, ((s.setProc p proc).procs q).call = (s.procs q).call :=
    Race.setProc_forall (motive := fun q proc => proc.call = (s.procs q).call) hcall rfl
  refine ⟨?_, fun hc q => ?_, fun hc q => ?_⟩
  · exact Race.setProc_forall (motive := fun _ proc => proc.Settled) hsettled (h.settled !p)
  · rw [hcalls]
    exact h.facts (hc.of_setProc hcontested) q
  · rw [hcalls, hcalls]
    exact h.exclusive (hc.of_setProc hcontested) q

theorem Race.Inv.step (h : s.Inv pids) (hs : s.Steps pids action s')
    (hcareful : s.Careful pids action) : s'.Inv pids := by
  cases hs with
  | called halive hbefore hkill hcall => exact h.called hbefore hkill hcall hcareful
  | @cleaning _ p cleanup hreturned howned hcleanup =>
    refine h.left rfl (fun hp => ⟨hp.1, hcleanup⟩) ⟨fun _ => ?_, fun hp => ?_⟩
    · rcases hreturned with hreturned | hbefore
      · exact hreturned
      · exact (h.settled p).1 hbefore
    · rcases howned with rfl | howned | hlstat
      · rcases hp with hp | hp <;> cases hp
      · exact howned
      · exact (h.settled p).2 (.inl hlstat)
  | @unlinked p halive hcleanup =>
    have hleft : ¬ Race.Contested ({ s with files := { s.files with entry := none } }.setProc p
        { s.procs p with cleanup := .done }) := by
      intro hc
      have hp := (hc p).2
      rw [Race.setProc_self] at hp
      exact hp rfl
    refine ⟨?_, fun hc => absurd hc hleft, fun hc => absurd hc hleft⟩
    refine Race.setProc_forall (motive := fun _ proc => proc.Settled) ⟨fun _ => ?_, fun hp => ?_⟩
      (h.settled !p)
    · exact (h.settled p).1 (by rw [hcleanup]; decide)
    · rcases hp with hp | hp <;> cases hp
  | @exited p => exact h.left rfl (fun hp => by cases hp.1) (h.settled p)
  | @reclaimed id hentry =>
    refine ⟨h.settled, fun hc q => ?_, h.exclusive⟩
    refine (h.facts hc q).frame (fun _ => rfl) fun _ fd he => .inl ?_
    refine Function.update_of_ne ?_ _ _
    rintro rfl
    exact hentry he

theorem Race.Reaches.inv {files : Files} (h : Race.Reaches pids (Race.start files) s) :
    s.Inv pids := by
  induction h with
  | refl => exact Race.inv_start files
  | tail _ hstep ih =>
    obtain ⟨action, hcareful, hstep⟩ := hstep
    exact ih.step (Race.step_steps hstep) hcareful

/-- In a run whose steps are careful, never do both processes own the pidfile, and the cleanup of
one never removes a pidfile that the other owns. -/
theorem pidfile_race {pids : Pids} {files : Files} {s : Race}
    (h : Race.Reaches pids (Race.start files) s) :
    ¬ ((s.procs false).Won ∧ (s.procs true).Won) ∧
      ∀ p s', s.step pids (.unlink p .ok) = some s' →
        ¬ ((s.procs !p).Owner ∧ ∃ id, s.files.entry = some (.inode id) ∧
          s.files.node id = some (.regular (pidText (pids.pid !p)))) := by
  have hinv := h.inv
  have hexclusive : ∀ p, ¬ ((s.procs p).Owner ∧ (s.procs !p).Owner) := by
    rintro p ⟨hp, hpeer⟩
    have hc : s.Contested := by
      intro q
      rcases Bool.eq_or_eq_not q p with rfl | rfl
      · exact ⟨hp.1, hp.2.2⟩
      · exact ⟨hpeer.1, hpeer.2.2⟩
    exact hinv.exclusive hc p ⟨.inl hp.2.1, .inl hpeer.2.1⟩
  refine ⟨fun hboth => hexclusive false ⟨hboth.1.2, hboth.2.2⟩, ?_⟩
  rintro p s' hstep ⟨howner, -⟩
  obtain ⟨halive, hcleanup⟩ := Race.unlink_ok hstep
  have howned := (hinv.settled p).2 (.inr hcleanup)
  exact hexclusive p ⟨⟨halive, howned, by rw [hcleanup]; decide⟩, howner⟩

end Race

def racers : Pids where
  pid p := if p then 35 else 34
  distinct := by decide
  pos := by decide
  lt := by decide

/-- The calls of one process up to the second open, when the pidfile is stale. -/
def findStale (p : Bool) : List Action :=
  [.call p .ok, .call p .ok, .call p (.took 3), .call p .ok, .call p (.fails .esrch), .call p .ok]

/-- The calls from the second open on. -/
def takeOver (p : Bool) : List Action :=
  [.call p .ok, .call p .ok, .call p .ok, .call p (.took 2), .call p .ok]

theorem Race.careful_of_pc {pids : Pids} {s : Race} {p : Bool} {pc : Pc} (outcome : Outcome)
    (hpc : (s.procs p).call.pc = pc) (htruncate : ∀ observed, pc ≠ .truncate observed)
    (hwrite : ∀ fd, pc ≠ .write fd) : s.Careful pids (.call p outcome) :=
  fun _ _ => ⟨fun observed he => absurd (hpc.symm.trans he) (htruncate observed),
    fun fd _ he => absurd (hpc.symm.trans he) (hwrite fd)⟩

/-- The second process opens the pidfile while it is stale and reads it behind the first. -/
theorem pidfile_race_stale : ∃ s, (s.procs false).Won ∧
    (s.procs true).call.pc = .returned (.error .eexist) ∧ ¬ (s.procs true).Won ∧
    Race.Reaches racers (Race.start staleFiles) s := by
  have h₁ : Race.Reaches racers (Race.start staleFiles) _ := .single
    ⟨.call false .ok, Race.careful_of_pc _ rfl nofun nofun, rfl⟩
  have h₂ := h₁.tail ⟨.call true .ok, Race.careful_of_pc _ rfl nofun nofun, rfl⟩
  have h₃ := h₂.tail ⟨.call false .ok, Race.careful_of_pc _ rfl nofun nofun, rfl⟩
  have h₄ := h₃.tail ⟨.call false (.took 3), Race.careful_of_pc _ rfl nofun nofun, rfl⟩
  have h₅ := h₄.tail ⟨.call true .ok, Race.careful_of_pc _ rfl nofun nofun, rfl⟩
  have h₆ := h₅.tail ⟨.call false .ok, Race.careful_of_pc _ rfl nofun nofun, rfl⟩
  have h₇ := h₆.tail ⟨.call false (.fails .esrch), Race.careful_of_pc _ rfl nofun nofun, rfl⟩
  have h₈ := h₇.tail ⟨.call false .ok, Race.careful_of_pc _ rfl nofun nofun, rfl⟩
  have h₉ := h₈.tail ⟨.call false .ok, Race.careful_of_pc _ rfl nofun nofun, rfl⟩
  have h₁₀ := h₉.tail ⟨.call false .ok, Race.careful_of_pc _ rfl nofun nofun, rfl⟩
  have h₁₁ := h₁₀.tail ⟨.call false .ok, fun _ _ =>
    ⟨fun _ hpc _ => ⟨[49, 50, 10], Pc.truncate.inj hpc ▸ rfl, Pc.truncate.inj hpc ▸ rfl⟩,
      fun _ _ hpc => by cases hpc⟩, rfl⟩
  have h₁₂ := h₁₁.tail ⟨.call false (.took 2), fun _ _ =>
    ⟨fun _ hpc => (by cases hpc), fun _ _ _ htook => Outcome.took.inj htook ▸ (by decide)⟩, rfl⟩
  have h₁₃ := h₁₂.tail ⟨.call true (.took 2), Race.careful_of_pc _ rfl nofun nofun, rfl⟩
  have h₁₄ := h₁₃.tail ⟨.call false .ok, Race.careful_of_pc _ rfl nofun nofun, rfl⟩
  have h₁₅ := h₁₄.tail ⟨.call true .ok, Race.careful_of_pc _ rfl nofun nofun, rfl⟩
  have h := h₁₅.tail ⟨.call true .ok, Race.careful_of_pc _ rfl nofun nofun, rfl⟩
  refine ⟨_, ?_, rfl, fun htrue => (pidfile_race h).1 ⟨?_, htrue⟩, h⟩
  all_goals exact ⟨rfl, rfl, rfl, by decide⟩

/-- Both processes find the pidfile stale before either truncates it. Both calls succeed, and the
cleanup of the first removes the pidfile of the second. -/
theorem pidfile_race_both : ∃ s, Race.run racers (Race.start staleFiles)
    (findStale false ++ findStale true ++ takeOver false ++ takeOver true) = some s ∧
    (s.procs false).Won ∧ (s.procs true).Won ∧
    ∃ s', Race.run racers s [.beginCleanup false, .lstat false .ok] = some s' ∧
      (s'.step racers (.unlink false .ok)).isSome = true ∧ (s'.procs true).Owner ∧
      ∃ id, s'.files.entry = some (.inode id) ∧
        s'.files.node id = some (.regular (pidText (racers.pid true))) := by
  refine ⟨_, rfl, ⟨rfl, rfl, rfl, ?_⟩, ⟨rfl, rfl, rfl, ?_⟩, _, rfl, rfl, ⟨rfl, rfl, ?_⟩,
    ⟨1, 7⟩, rfl, rfl⟩
  all_goals decide

end Pidfile

end Iperf3Rs
