import Iperf3Rs.PidfileChecked

/-! What a call of `iperf3rs_pidfile_checked` has changed is on record in `owned` and `identity`,
apart from a file that it has created and whose `fstat` has not succeeded. -/

namespace Iperf3Rs

namespace Pidfile

variable {observe : Observer} {caller : ℕ} {trace : List Transition} {files files' : Files}
  {c c' : Call} {outcome : Outcome} {event : Event}

theorem did_append {t : Transition} {e : Event} :
    Did (trace ++ [t]) e ↔ Did trace e ∨ t.event = some e := by
  simp only [Did, Happened, List.mem_append, List.mem_singleton]
  constructor
  · rintro ⟨s, hs | rfl, he⟩
    · exact .inl ⟨s, hs, he⟩
    · exact .inr he
  · rintro (⟨s, hs, he⟩ | he)
    · exact ⟨s, .inl hs, he⟩
    · exact ⟨t, .inr rfl, he⟩

theorem Call.Steps.keeps (h : Call.Steps observe caller files c outcome files' event c')
    (hfacts : PcFacts observe caller trace files c) (howned : c.owned = true) :
    c'.owned = true ∧ c'.identity = c.identity := by
  cases h with
  | mismatched e fd existed hpc =>
    have hunowned : c.owned = false := by
      cases existed <;> simp only [PcFacts, hpc] at hfacts <;> exact hfacts.1
    cases howned.symm.trans hunowned
  | matched observed bytes hpc hnode =>
    simp only [PcFacts, hpc] at hfacts
    cases howned.symm.trans hfacts.1
  | fresh fd bytes hpc hnode =>
    simp only [PcFacts, hpc] at hfacts
    cases howned.symm.trans hfacts.1
  | truncated => exact ⟨rfl, rfl⟩
  | _ => exact ⟨howned, rfl⟩

/-- A step that changes a file that was there changes the one on record. -/
theorem Call.Steps.takes (h : Call.Steps observe caller files c outcome files' event c')
    (hfacts : PcFacts observe caller trace files c) {id : Identity} (hthere : files.node id ≠ none)
    (hchange : files'.node id ≠ files.node id) : c'.owned = true ∧ c'.identity = some id := by
  have hset : ∀ {fd : Identity} {node : Option Node},
      (files.setNode fd node).node id ≠ files.node id → id = fd := by
    intro fd node hne
    by_contra hid
    exact hne (files.setNode_of_ne hid node)
  cases h with
  | created new hpc hentry hnode =>
    have hid : id ≠ new := by
      rintro rfl
      exact hthere hnode
    exact absurd (files.create_of_ne hid) hchange
  | truncated observed bytes hpc hnode =>
    simp only [PcFacts, hpc] at hfacts
    obtain rfl := hset hchange
    exact ⟨rfl, hfacts.2.2.2⟩
  | wrote fd bytes hpc hnode =>
    simp only [PcFacts, hpc] at hfacts
    obtain rfl := hset hchange
    exact ⟨hfacts.1, hfacts.2.1⟩
  | stoppedShort fd bytes count hpc hnode =>
    simp only [PcFacts, hpc] at hfacts
    obtain rfl := hset hchange
    exact ⟨hfacts.1, hfacts.2.1⟩
  | _ => exact absurd rfl hchange

theorem Run.taken (h : Run observe caller trace files c) :
    ∀ t ∈ trace, t.own → ∀ id, t.before.node id ≠ none → t.after.node id ≠ t.before.node id →
      c.owned = true ∧ c.identity = some id := by
  induction h with
  | start files => exact fun t ht => by cases ht
  | call outcome h hstep ih =>
    have hsteps := Call.step_steps hstep
    have hfacts := h.inv.facts
    intro t ht hown id hthere hchange
    rcases List.mem_append.mp ht with ht | ht
    · obtain ⟨howned, hidentity⟩ := ih t ht hown id hthere hchange
      obtain ⟨howned', hidentity'⟩ := hsteps.keeps hfacts howned
      exact ⟨howned', hidentity'.trans hidentity⟩
    · rw [List.mem_singleton.mp ht] at hthere hchange
      exact hsteps.takes hfacts hthere hchange
  | replaced files' h hbetween hopen ih =>
    intro t ht hown
    rcases List.mem_append.mp ht with ht | ht
    · exact ih t ht hown
    · rw [List.mem_singleton.mp ht] at hown
      cases hown

/-- The call has created the file, or truncated it to take it over. -/
def Taken (trace : List Transition) (id : Identity) : Prop :=
  Did trace (.created id) ∨ Did trace (.truncated id)

theorem Taken.append {id : Identity} (h : Taken trace id) (t : Transition) :
    Taken (trace ++ [t]) id :=
  h.imp (fun hdid => did_append.mpr (.inl hdid)) (fun hdid => did_append.mpr (.inl hdid))

theorem Run.truncated (h : Run observe caller trace files c) {id : Identity}
    (hdid : Did trace (.truncated id)) : c.owned = true ∧ c.identity = some id := by
  induction h with
  | start files =>
    obtain ⟨t, ht, -⟩ := hdid
    cases ht
  | call outcome h hstep ih =>
    have hsteps := Call.step_steps hstep
    have hfacts := h.inv.facts
    rcases did_append.mp hdid with hdid | he
    · obtain ⟨howned, hidentity⟩ := ih hdid
      obtain ⟨howned', hidentity'⟩ := hsteps.keeps hfacts howned
      exact ⟨howned', hidentity'.trans hidentity⟩
    · cases hsteps with
      | truncated observed bytes hpc hnode =>
        simp only [PcFacts, hpc] at hfacts
        cases he
        exact ⟨rfl, hfacts.2.2.2⟩
      | _ => cases he
  | replaced files' h hbetween hopen ih =>
    rcases did_append.mp hdid with hdid | he
    · exact ih hdid
    · cases he

theorem Run.taken_of_owned (h : Run observe caller trace files c) (howned : c.owned = true) :
    ∃ id, c.identity = some id ∧ Taken trace id := by
  induction h with
  | start files => cases howned
  | @call trace files files' c c' event outcome h hstep ih =>
    have hfacts := h.inv.facts
    by_cases hbefore : c.owned = true
    · obtain ⟨id, hidentity, htaken⟩ := ih hbefore
      have hkeeps := (Call.step_steps hstep).keeps hfacts hbefore
      exact ⟨id, hkeeps.2.trans hidentity, htaken.append _⟩
    · cases Call.step_steps hstep with
      | fresh fd bytes hpc hnode =>
        simp only [PcFacts, hpc] at hfacts
        exact ⟨fd, rfl, .inl (did_append.mpr (.inl hfacts.2.1))⟩
      | truncated observed bytes hpc hnode =>
        simp only [PcFacts, hpc] at hfacts
        exact ⟨observed.id, hfacts.2.2.2, .inr (did_append.mpr (.inr rfl))⟩
      | _ => exact absurd howned hbefore
  | replaced files' h hbetween hopen ih =>
    obtain ⟨id, hidentity, htaken⟩ := ih howned
    exact ⟨id, hidentity, htaken.append _⟩

/-- A created file is at the path until its `fstat`, and on record from then on. -/
structure Accounted (trace : List Transition) (files : Files) (c : Call) : Prop where
  atStat : ∀ id, c.pc = .statWrite id none → files.entry = some (.inode id)
  created : ∀ id, Did trace (.created id) →
    c.pc = .statWrite id none ∨ (c.owned = true ∧ c.identity = some id)

theorem accounted_start (files : Files) : Accounted [] files .start where
  atStat id hpc := by cases hpc
  created id hdid := by
    obtain ⟨t, ht, -⟩ := hdid
    cases ht

theorem step_fstat_created {id : Identity} (hpc : c.pc = .statWrite id none)
    (hnode : files.node id = some (.regular []))
    (hstep : c.step observe caller files outcome = some (files', event, c')) :
    (∃ e, outcome = .fails e ∧ files' = files ∧ event = .none ∧ c' = c.fail e) ∨
      (outcome = .ok ∧ files' = files ∧ event = .none ∧ c' = ⟨.write id, true, some id⟩) := by
  obtain ⟨pc, owned, identity⟩ := c
  simp only at hpc
  subst hpc
  cases outcome with
  | ok =>
    simp only [Call.step, hnode] at hstep
    cases hstep
    exact .inr ⟨rfl, rfl, rfl, rfl⟩
  | fails e =>
    cases hstep
    exact .inl ⟨e, rfl, rfl, rfl, rfl⟩
  | took _ | created _ => cases hstep

theorem Accounted.call (h : Accounted trace files c) (hinv : CheckedInv observe caller trace files c)
    (hstep : c.step observe caller files outcome = some (files', event, c'))
    (hfstat : ∀ id e, c.pc = .statWrite id none → outcome ≠ .fails e) :
    Accounted (trace ++ [⟨files, some event, files'⟩]) files' c' := by
  have hfacts := hinv.facts
  by_cases hstat : ∃ id, c.pc = .statWrite id none
  · obtain ⟨id, hpc⟩ := hstat
    simp only [PcFacts, hpc] at hfacts
    obtain ⟨howned, -, hnode⟩ := hfacts
    obtain ⟨e, he, -⟩ | ⟨-, rfl, rfl, rfl⟩ := step_fstat_created hpc hnode hstep
    · exact absurd he (hfstat id e hpc)
    · refine ⟨fun other hother => (by cases hother), fun other hdid => .inr ⟨rfl, ?_⟩⟩
      rcases did_append.mp hdid with hdid | he
      · rcases h.created other hdid with hother | ⟨hown, -⟩
        · rw [hpc] at hother
          cases hother
          rfl
        · cases hown.symm.trans howned
      · cases he
  · have hsteps := Call.step_steps hstep
    have hrecorded : ∀ id, Did trace (.created id) → c'.owned = true ∧ c'.identity = some id := by
      intro id hdid
      rcases h.created id hdid with hpc | ⟨howned, hidentity⟩
      · exact absurd ⟨id, hpc⟩ hstat
      · obtain ⟨howned', hidentity'⟩ := hsteps.keeps hfacts howned
        exact ⟨howned', hidentity'.trans hidentity⟩
    have hcreated : ∀ id, Did (trace ++ [⟨files, some event, files'⟩]) (.created id) →
        event ≠ .created id → c'.owned = true ∧ c'.identity = some id := by
      intro id hdid hne
      rcases did_append.mp hdid with hdid | he
      · exact hrecorded id hdid
      · exact absurd (Option.some.inj he) hne
    cases hsteps with
    | created new hpc hentry hnode =>
      refine ⟨fun id hid => ?_, fun id hdid => ?_⟩
      · cases hid
        rfl
      · by_cases hid : new = id
        · exact .inl (by rw [hid])
        · exact .inr (hcreated id hdid fun he => hid (by cases he; rfl))
    | _ =>
      exact ⟨fun id hid => (by cases hid), fun id hdid => .inr (hcreated id hdid fun he => by cases he)⟩

theorem Accounted.replaced (h : Accounted trace files c) (hbetween : c.pc.betweenOpens = true)
    (files' : Files) : Accounted (trace ++ [⟨files, none, files'⟩]) files' c where
  atStat id hpc := by
    rw [hpc] at hbetween
    cases hbetween
  created id hdid := by
    rcases did_append.mp hdid with hdid | he
    · exact h.created id hdid
    · cases he

end Pidfile

end Iperf3Rs
