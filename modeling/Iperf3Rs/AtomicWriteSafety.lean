import Iperf3Rs.AtomicWriteCalls
import Mathlib.Data.List.Nodup

/-! Safety of concurrent atomic writes, over every run of any number of writes. The destination
only ever changes by the rename of a complete file. -/

namespace Iperf3Rs

namespace FileWrites

variable {ε : Type} {cfg : FileSinkContext} {before : FileSystem} {s s' : FileWrites ε}

/-- The destination is as it was before the run, or it holds what the last finished write was
given. -/
def Destination (cfg : FileSinkContext) (before : FileSystem) (s : FileWrites ε) : Prop :=
  match s.installed.getLast? with
  | none => s.fs cfg.path = before cfg.path
  | some k => ∃ w permissions, s.writers k = some w ∧ w.finished = true ∧
      s.fs cfg.path = some (.file w.contents permissions)

structure Inv (cfg : FileSinkContext) (before : FileSystem) (s : FileWrites ε) : Prop where
  fresh : ∀ k, s.counter ≤ k → s.writers k = none
  writer : ∀ k w, s.writers k = some w →
    WriterInv cfg.path (cfg.tempPathFor k) before s.fs w
  foreign : ∀ p, p ≠ cfg.path → before p ≠ none → s.fs p = before p
  installed : ∀ k w, s.writers k = some w → (k ∈ s.installed ↔ w.finished = true)
  known : ∀ k ∈ s.installed, s.writers k ≠ none
  nodup : s.installed.Nodup
  destination : s.Destination cfg before

theorem inv_start (fs : FileSystem) (counter : ℕ) : (start fs counter : FileWrites ε).Inv cfg fs where
  fresh _ _ := rfl
  writer _ _ h := by cases h
  foreign _ _ _ := rfl
  installed _ _ h := by cases h
  known _ h := by cases h
  nodup := List.nodup_nil
  destination := rfl

theorem step_call {k : ℕ} {outcome : CallOutcome ε}
    (h : s.step cfg (.call k outcome) = some s') :
    ∃ w fs' w', s.writers k = some w ∧
      w.Calls cfg.path (cfg.tempPathFor k) cfg.openPermissions s.fs fs' w' ∧
      s' = { s with
        fs := fs'
        writers := Function.update s.writers k (some w')
        installed := if w'.finished then s.installed ++ [k] else s.installed } := by
  cases hw : s.writers k with
  | none => simp [step, hw] at h
  | some w =>
    simp only [step, hw] at h
    split at h
    · cases h
    · next fs' w' hcall =>
      cases h
      exact ⟨w, fs', w', rfl, Writer.call_calls hcall, rfl⟩

theorem writers_update {k j : ℕ} {w w' : Writer ε}
    (h : Function.update s.writers k (some w') j = some w) :
    (j = k ∧ w = w') ∨ (j ≠ k ∧ s.writers j = some w) := by
  by_cases hj : j = k
  · subst hj
    rw [Function.update_self, Option.some.injEq] at h
    exact .inl ⟨rfl, h.symm⟩
  · rw [Function.update_of_ne hj] at h
    exact .inr ⟨hj, h⟩

theorem Destination.of_writers (h : s.Destination cfg before)
    (hfs : s'.fs cfg.path = s.fs cfg.path) (hinstalled : s'.installed = s.installed)
    (hwriters : ∀ k ∈ s.installed, s'.writers k = s.writers k) : s'.Destination cfg before := by
  rw [Destination, hinstalled, hfs]
  rw [Destination] at h
  cases hlast : s.installed.getLast? with
  | none =>
    rw [hlast] at h
    exact h
  | some k =>
    rw [hlast] at h
    obtain ⟨w, permissions, hw, hrest⟩ := h
    exact ⟨w, permissions, (hwriters k (List.mem_of_getLast? hlast)).trans hw, hrest⟩

theorem Inv.begin (h : s.Inv cfg before) (contents : List UInt8) :
    Inv cfg before { s with
      counter := s.counter + 1
      writers := Function.update s.writers s.counter (some (.new contents)) } := by
  have hnew : s.writers s.counter = none := h.fresh s.counter (Nat.le_refl _)
  have hnot : s.counter ∉ s.installed := fun hmem => h.known _ hmem hnew
  have hother : ∀ k ∈ s.installed,
      Function.update s.writers s.counter (some (.new contents)) k = s.writers k := by
    intro k hk
    have hne : k ≠ s.counter := by
      rintro rfl
      exact hnot hk
    exact Function.update_of_ne hne _ _
  refine ⟨fun k hk => ?_, fun k w hw => ?_, h.foreign, fun k w hw => ?_, fun k hk => ?_, h.nodup,
    h.destination.of_writers rfl rfl hother⟩
  · have hne : k ≠ s.counter := by
      have : s.counter + 1 ≤ k := hk
      omega
    exact (Function.update_of_ne hne _ _).trans (h.fresh k (Nat.le_of_succ_le hk))
  · rcases writers_update hw with ⟨rfl, rfl⟩ | ⟨-, hw⟩
    · exact ⟨rfl, rfl⟩
    · exact h.writer k w hw
  · rcases writers_update hw with ⟨rfl, rfl⟩ | ⟨-, hw⟩
    · exact ⟨fun hmem => absurd hmem hnot, fun hfinished => by cases hfinished⟩
    · exact h.installed k w hw
  · exact fun hnone => h.known k hk ((hother k hk).symm.trans hnone)

theorem Inv.call (h : s.Inv cfg before) {k : ℕ} {outcome : CallOutcome ε}
    (hstep : s.step cfg (.call k outcome) = some s') : s'.Inv cfg before := by
  obtain ⟨w, fs', w', hw, hcall, rfl⟩ := step_call hstep
  have hinv := h.writer k w hw
  have heffect := hcall.effect hinv h.foreign
  have hnot : k ∉ s.installed := by
    intro hmem
    cases hcall.unfinished.symm.trans ((h.installed k w hw).mp hmem)
  have hother : ∀ j ∈ s.installed, Function.update s.writers k (some w') j = s.writers j := by
    intro j hj
    have hne : j ≠ k := by
      rintro rfl
      exact hnot hj
    exact Function.update_of_ne hne _ _
  have hmem : ∀ j, j ∈ (if w'.finished then s.installed ++ [k] else s.installed) ↔
      j ∈ s.installed ∨ (j = k ∧ w'.finished = true) := by
    intro j
    by_cases hfinished : w'.finished = true
    · simp [hfinished]
    · simp [hfinished]
  refine ⟨fun j hj => ?_, fun j v hv => ?_, fun p hp hbefore => ?_, fun j v hv => ?_,
    fun j hj => ?_, ?_, ?_⟩
  · have hne : j ≠ k := by
      rintro rfl
      cases (h.fresh j hj).symm.trans hw
    exact (Function.update_of_ne hne _ _).trans (h.fresh j hj)
  · rcases writers_update hv with ⟨rfl, rfl⟩ | ⟨hne, hv⟩
    · exact hcall.inv hinv h.foreign
    · refine (h.writer j v hv).frame (fun hapart => ?_) (fun hpath => ?_)
      · exact heffect.other hapart fun he => hne (cfg.tempPathFor_injective he)
      · rcases Bool.eq_false_or_eq_true w'.finished with hfinished | hfinished
        · obtain ⟨permissions, hfs⟩ := heffect.replaced hfinished
          simp [hfs]
        · exact fun hnone => hpath ((heffect.unchanged hfinished).symm.trans hnone)
  · exact (heffect.foreign hp hbefore).trans (h.foreign p hp hbefore)
  · rw [hmem]
    rcases writers_update hv with ⟨rfl, rfl⟩ | ⟨hne, hv⟩
    · simp [hnot]
    · rw [← h.installed j v hv]
      simp [hne]
  · rcases (hmem j).mp hj with hj | ⟨rfl, -⟩
    · exact fun hnone => h.known j hj ((hother j hj).symm.trans hnone)
    · simp
  · by_cases hfinished : w'.finished = true
    · rw [if_pos hfinished]
      exact List.nodup_append.mpr ⟨h.nodup, List.nodup_singleton k,
        fun j hj i hi he => hnot (by rw [← List.mem_singleton.mp hi, ← he]; exact hj)⟩
    · rw [if_neg hfinished]
      exact h.nodup
  · by_cases hfinished : w'.finished = true
    · obtain ⟨permissions, hfs⟩ := heffect.replaced hfinished
      rw [Destination, if_pos hfinished, List.getLast?_concat]
      exact ⟨w', permissions, Function.update_self _ _ _, hfinished, hcall.contents ▸ hfs⟩
    · have hfs := heffect.unchanged (Bool.eq_false_iff.mpr hfinished)
      exact h.destination.of_writers hfs (if_neg hfinished) hother

theorem Inv.run (h : s.Inv cfg before) {actions : List (WriteAction ε)}
    (hrun : s.run cfg actions = some s') : s'.Inv cfg before := by
  induction actions generalizing s with
  | nil =>
    cases hrun
    exact h
  | cons action actions ih =>
    cases hstep : s.step cfg action with
    | none => simp [FileWrites.run, hstep] at hrun
    | some t =>
      simp only [FileWrites.run, hstep] at hrun
      cases action with
      | begin contents =>
        cases hstep
        exact ih (h.begin contents) hrun
      | call k outcome => exact ih (h.call hstep) hrun

/-- What holds at every moment of a run, `before` being the file system it started from. The
last field is about the next call of any write. -/
structure Safe (cfg : FileSinkContext) (before : FileSystem) (s : FileWrites ε) : Prop where
  destination : s.Destination cfg before
  ok_installed : ∀ k w, s.writers k = some w → w.pc = .returned (.ok ()) →
    s.installed.count k = 1
  error_untouched : ∀ k w e, s.writers k = some w → w.pc = .returned (.error e) →
    k ∉ s.installed
  error_cleaned : ∀ k w e, s.writers k = some w → w.pc = .returned (.error e) →
    w.created = true → w.removed = true → s.fs (cfg.tempPathFor k) = none
  foreign : ∀ p, p ≠ cfg.path → before p ≠ none → s.fs p = before p
  atomic : ∀ k outcome s', s.step cfg (.call k outcome) = some s' →
    (s'.fs cfg.path = s.fs cfg.path ∧ s'.installed = s.installed) ∨
    ∃ w permissions, s'.writers k = some w ∧ w.pc = .returned (.ok ()) ∧
      s'.fs cfg.path = some (.file w.contents permissions) ∧ s'.installed = s.installed ++ [k]

theorem Inv.atomic (h : s.Inv cfg before) {k : ℕ} {outcome : CallOutcome ε}
    (hstep : s.step cfg (.call k outcome) = some s') :
    (s'.fs cfg.path = s.fs cfg.path ∧ s'.installed = s.installed) ∨
    ∃ w permissions, s'.writers k = some w ∧ w.pc = .returned (.ok ()) ∧
      s'.fs cfg.path = some (.file w.contents permissions) ∧
      s'.installed = s.installed ++ [k] := by
  obtain ⟨w, fs', w', hw, hcall, rfl⟩ := step_call hstep
  have heffect := hcall.effect (h.writer k w hw) h.foreign
  rcases Bool.eq_false_or_eq_true w'.finished with hfinished | hfinished
  · obtain ⟨permissions, hfs⟩ := heffect.replaced hfinished
    rw [← hcall.contents] at hfs
    exact .inr ⟨w', permissions, Function.update_self _ _ _, w'.finished_eq.mp hfinished, hfs,
      if_pos hfinished⟩
  · exact .inl ⟨heffect.unchanged hfinished, if_neg (Bool.eq_false_iff.mp hfinished)⟩

theorem Inv.safe (h : s.Inv cfg before) : s.Safe cfg before where
  destination := h.destination
  ok_installed k w hw hpc := by
    have hmem := (h.installed k w hw).mpr (w.finished_eq.mpr hpc)
    exact List.count_eq_one_of_mem h.nodup hmem
  error_untouched k w e hw hpc hmem := by
    have hfinished := w.finished_eq.mp ((h.installed k w hw).mp hmem)
    cases hpc.symm.trans hfinished
  error_cleaned k w e hw hpc hcreated hremoved := by
    have hinv := h.writer k w hw
    rw [WriterInv, hpc] at hinv
    exact (hinv hcreated).2 hremoved
  foreign := h.foreign
  atomic k outcome s' hstep := h.atomic hstep

end FileWrites

theorem atomic_write_safe {ε : Type} (cfg : FileSinkContext) (before : FileSystem) (counter : ℕ)
    (actions : List (WriteAction ε)) {s : FileWrites ε}
    (h : (FileWrites.start before counter).run cfg actions = some s) : s.Safe cfg before :=
  ((FileWrites.inv_start before counter).run h).safe

section Interleaved

/-- The first of two writes finds no space after one byte and removes its file, the second goes
through. -/
def interleaved : List (WriteAction String) :=
  [.begin [65, 66], .call 0 .ok, .call 0 .ok, .begin [88, 89], .call 1 .ok, .call 0 .ok,
    .call 0 (.wrote 1), .call 1 .ok, .call 1 .ok, .call 1 (.wrote 2), .call 1 .ok,
    .call 0 (.fails "no space"), .call 1 .ok, .call 1 .ok, .call 0 .ok]

def previousSnapshot : FileSystem := fun p =>
  if p = [.normal [109]] then some (.file [1] 420) else none

theorem atomic_write_safe_interleaved : ∃ s : FileWrites String,
    (FileWrites.start previousSnapshot 0).run ⟨[.normal [109]], 7, fun _ => "m", 384⟩ interleaved =
      some s ∧
    s.fs [.normal [109]] = some (.file [88, 89] 420) ∧
    s.Safe ⟨[.normal [109]], 7, fun _ => "m", 384⟩ previousSnapshot :=
  ⟨_, rfl, rfl, atomic_write_safe _ previousSnapshot 0 interleaved rfl⟩

end Interleaved

end Iperf3Rs
