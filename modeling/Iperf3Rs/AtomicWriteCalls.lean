import Iperf3Rs.AtomicWrite

/-! What one call of a write does to the file system and to the write itself, and what holds of
a write between its calls. A temporary file belongs to the write that created it. -/

namespace Iperf3Rs

variable {ε : Type}

@[simp] theorem FileSystem.set_self (fs : FileSystem) (path : PathBuf) (entry : Option Entry) :
    fs.set path entry path = entry := by
  simp [FileSystem.set]

theorem FileSystem.set_ne (fs : FileSystem) {path other : PathBuf} (entry : Option Entry)
    (h : other ≠ path) : fs.set path entry other = fs other := by
  simp [FileSystem.set, h]

section Call

variable {path tempPath : PathBuf} {openPermissions : ℕ}

def WriterPc.inClosure : WriterPc ε → Bool
  | .settingPermissions _ | .writing _ | .flushing | .renamingTemp => true
  | _ => false

inductive Writer.Calls (path tempPath : PathBuf) (openPermissions : ℕ) (fs : FileSystem)
    (w : Writer ε) : FileSystem → Writer ε → Prop where
  | metadata {entry : Entry} (hpc : w.pc = .metadata) (hpath : fs path = some entry) :
      Calls path tempPath openPermissions fs w fs { w with pc := .openingTemp entry.permissions }
  | returns {e : ε} (hpc : w.pc = .metadata ∨ ∃ permissions, w.pc = .openingTemp permissions) :
      Calls path tempPath openPermissions fs w fs { w with pc := .returned (.error e) }
  | opens {permissions : ℕ} (hpc : w.pc = .openingTemp permissions) (hfree : fs tempPath = none) :
      Calls path tempPath openPermissions fs w
        (fs.set tempPath (some (.file [] openPermissions)))
        { w with pc := .settingPermissions permissions, created := true }
  | setsPermissions {permissions old : ℕ} {contents : List UInt8}
      (hpc : w.pc = .settingPermissions permissions)
      (htemp : fs tempPath = some (.file contents old)) :
      Calls path tempPath openPermissions fs w
        (fs.set tempPath (some (.file contents permissions))) { w with pc := .writing w.contents }
  | writes {chunk rest contents : List UInt8} {permissions : ℕ}
      (hpc : w.pc = .writing (chunk ++ rest))
      (htemp : fs tempPath = some (.file contents permissions)) :
      Calls path tempPath openPermissions fs w
        (fs.set tempPath (some (.file (contents ++ chunk) permissions)))
        { w with pc := .writing rest }
  | written (hpc : w.pc = .writing []) :
      Calls path tempPath openPermissions fs w fs { w with pc := .flushing }
  | flushes (hpc : w.pc = .flushing) :
      Calls path tempPath openPermissions fs w fs { w with pc := .renamingTemp }
  | fails {e : ε} (hpc : w.pc.inClosure = true) :
      Calls path tempPath openPermissions fs w fs { w with pc := .removingTemp e }
  | renames {contents : List UInt8} {permissions : ℕ} (hpc : w.pc = .renamingTemp)
      (htemp : fs tempPath = some (.file contents permissions)) :
      Calls path tempPath openPermissions fs w
        ((fs.set path (some (.file contents permissions))).set tempPath none)
        { w with pc := .returned (.ok ()) }
  | removes {e : ε} (hpc : w.pc = .removingTemp e) :
      Calls path tempPath openPermissions fs w (fs.set tempPath none)
        { w with pc := .returned (.error e), removed := true }
  | leaves {e : ε} (hpc : w.pc = .removingTemp e) :
      Calls path tempPath openPermissions fs w fs { w with pc := .returned (.error e) }

theorem Writer.call_calls {fs fs' : FileSystem} {w w' : Writer ε} {outcome : CallOutcome ε}
    (h : w.call path tempPath openPermissions fs outcome = some (fs', w')) :
    w.Calls path tempPath openPermissions fs fs' w' := by
  cases hpc : w.pc with
  | metadata =>
    cases outcome with
    | ok =>
      cases hpath : fs path with
      | none => simp [Writer.call, hpc, hpath] at h
      | some entry =>
        simp only [Writer.call, hpc, hpath] at h
        cases h
        exact .metadata hpc hpath
    | wrote count => simp [Writer.call, hpc] at h
    | fails e =>
      simp only [Writer.call, hpc] at h
      cases h
      exact .returns (.inl hpc)
  | openingTemp permissions =>
    cases outcome with
    | ok =>
      cases hfree : fs tempPath with
      | some entry => simp [Writer.call, hpc, hfree] at h
      | none =>
        simp only [Writer.call, hpc, hfree] at h
        cases h
        exact .opens hpc hfree
    | wrote count => simp [Writer.call, hpc] at h
    | fails e =>
      simp only [Writer.call, hpc] at h
      cases h
      exact .returns (.inr ⟨permissions, hpc⟩)
  | settingPermissions permissions =>
    cases outcome with
    | ok =>
      simp only [Writer.call, hpc] at h
      split at h
      · next htemp =>
        cases h
        exact .setsPermissions hpc htemp
      · cases h
    | wrote count => simp [Writer.call, hpc] at h
    | fails e =>
      simp only [Writer.call, hpc] at h
      cases h
      exact .fails (by rw [hpc]; rfl)
  | writing rest =>
    cases rest with
    | nil =>
      cases outcome with
      | ok =>
        simp only [Writer.call, hpc] at h
        cases h
        exact .written hpc
      | wrote count => simp [Writer.call, hpc] at h
      | fails e => simp [Writer.call, hpc] at h
    | cons byte rest =>
      cases outcome with
      | ok => simp [Writer.call, hpc] at h
      | wrote count =>
        simp only [Writer.call, hpc] at h
        split at h
        · next htemp =>
          split_ifs at h
          cases h
          exact .writes (by rw [hpc, List.take_append_drop]) htemp
        · cases h
      | fails e =>
        simp only [Writer.call, hpc] at h
        cases h
        exact .fails (by rw [hpc]; rfl)
  | flushing =>
    cases outcome with
    | ok =>
      simp only [Writer.call, hpc] at h
      cases h
      exact .flushes hpc
    | wrote count => simp [Writer.call, hpc] at h
    | fails e =>
      simp only [Writer.call, hpc] at h
      cases h
      exact .fails (by rw [hpc]; rfl)
  | renamingTemp =>
    cases outcome with
    | ok =>
      simp only [Writer.call, hpc] at h
      split at h
      · cases h
      · next htemp _ =>
        cases h
        exact .renames hpc htemp
      · cases h
    | wrote count => simp [Writer.call, hpc] at h
    | fails e =>
      simp only [Writer.call, hpc] at h
      cases h
      exact .fails (by rw [hpc]; rfl)
  | removingTemp e =>
    cases outcome with
    | ok =>
      simp only [Writer.call, hpc] at h
      split at h
      · cases h
        exact .removes hpc
      · cases h
    | wrote count => simp [Writer.call, hpc] at h
    | fails e' =>
      simp only [Writer.call, hpc] at h
      cases h
      exact .leaves hpc
  | returned result => simp [Writer.call, hpc] at h

/-- The temporary file exists, was created by the write, and holds `written`. -/
structure Owned (path tempPath : PathBuf) (before fs : FileSystem) (w : Writer ε)
    (written : List UInt8) : Prop where
  created : w.created = true
  kept : w.removed = false
  apart : tempPath ≠ path
  free : before tempPath = none
  temp : ∃ permissions, fs tempPath = some (.file written permissions)

def WriterInv (path tempPath : PathBuf) (before fs : FileSystem) (w : Writer ε) : Prop :=
  match w.pc with
  | .metadata => w.created = false ∧ w.removed = false
  | .openingTemp _ => (w.created = false ∧ w.removed = false) ∧ fs path ≠ none
  | .settingPermissions _ => Owned path tempPath before fs w []
  | .writing rest => ∃ written, written ++ rest = w.contents ∧
      Owned path tempPath before fs w written
  | .flushing | .renamingTemp => Owned path tempPath before fs w w.contents
  | .removingTemp _ => ∃ written, Owned path tempPath before fs w written
  | .returned (.ok ()) => w.created = true ∧ tempPath ≠ path ∧ fs tempPath = none
  | .returned (.error _) => w.created = true → tempPath ≠ path ∧
      (w.removed = true → fs tempPath = none)

variable {before fs fs' : FileSystem} {w w' : Writer ε}

theorem WriterInv.owned (h : WriterInv path tempPath before fs w)
    (hpc : w.pc.inClosure = true) : ∃ written, Owned path tempPath before fs w written := by
  cases hw : w.pc with
  | settingPermissions permissions =>
    rw [WriterInv, hw] at h
    exact ⟨[], h⟩
  | writing rest =>
    rw [WriterInv, hw] at h
    obtain ⟨written, -, howned⟩ := h
    exact ⟨written, howned⟩
  | flushing =>
    rw [WriterInv, hw] at h
    exact ⟨w.contents, h⟩
  | renamingTemp =>
    rw [WriterInv, hw] at h
    exact ⟨w.contents, h⟩
  | metadata | openingTemp _ | removingTemp _ | returned _ =>
    rw [hw] at hpc
    cases hpc

theorem WriterInv.frame (h : WriterInv path tempPath before fs w)
    (htemp : tempPath ≠ path → fs' tempPath = fs tempPath)
    (hpath : fs path ≠ none → fs' path ≠ none) : WriterInv path tempPath before fs' w := by
  have howned : ∀ written, Owned path tempPath before fs w written →
      Owned path tempPath before fs' w written := by
    intro written ho
    exact ⟨ho.created, ho.kept, ho.apart, ho.free, by rw [htemp ho.apart]; exact ho.temp⟩
  cases hw : w.pc with
  | metadata =>
    rw [WriterInv, hw] at h ⊢
    exact h
  | openingTemp permissions =>
    rw [WriterInv, hw] at h ⊢
    exact ⟨h.1, hpath h.2⟩
  | settingPermissions permissions =>
    rw [WriterInv, hw] at h ⊢
    exact howned _ h
  | writing rest =>
    rw [WriterInv, hw] at h ⊢
    obtain ⟨written, hcontents, ho⟩ := h
    exact ⟨written, hcontents, howned _ ho⟩
  | flushing =>
    rw [WriterInv, hw] at h ⊢
    exact howned _ h
  | renamingTemp =>
    rw [WriterInv, hw] at h ⊢
    exact howned _ h
  | removingTemp e =>
    rw [WriterInv, hw] at h ⊢
    obtain ⟨written, ho⟩ := h
    exact ⟨written, howned _ ho⟩
  | returned result =>
    cases result with
    | ok u =>
      rw [WriterInv, hw] at h ⊢
      exact ⟨h.1, h.2.1, by rw [htemp h.2.1]; exact h.2.2⟩
    | error e =>
      rw [WriterInv, hw] at h ⊢
      intro hcreated
      obtain ⟨hapart, hremoved⟩ := h hcreated
      exact ⟨hapart, fun hr => by rw [htemp hapart]; exact hremoved hr⟩

/-- The three ways in which a call touches the file system. -/
inductive CallEffect (path tempPath : PathBuf) (before fs fs' : FileSystem) (w w' : Writer ε) :
    Prop where
  | quiet (hfs : fs' = fs) (hfinished : w'.finished = false)
  | temp (entry : Option Entry) (hapart : tempPath ≠ path) (hfree : before tempPath = none)
      (hfs : fs' = fs.set tempPath entry) (hfinished : w'.finished = false)
  | installs (permissions : ℕ) (hapart : tempPath ≠ path) (hfree : before tempPath = none)
      (hfs : fs' = (fs.set path (some (.file w.contents permissions))).set tempPath none)
      (hfinished : w'.finished = true)

theorem CallEffect.other (h : CallEffect path tempPath before fs fs' w w') {p : PathBuf}
    (hpath : p ≠ path) (htemp : p ≠ tempPath) : fs' p = fs p := by
  cases h with
  | quiet hfs => rw [hfs]
  | temp _ _ _ hfs => rw [hfs, FileSystem.set_ne _ _ htemp]
  | installs _ _ _ hfs => rw [hfs, FileSystem.set_ne _ _ htemp, FileSystem.set_ne _ _ hpath]

theorem CallEffect.foreign (h : CallEffect path tempPath before fs fs' w w') {p : PathBuf}
    (hpath : p ≠ path) (hbefore : before p ≠ none) : fs' p = fs p := by
  by_cases htemp : p = tempPath
  · subst htemp
    cases h with
    | quiet hfs => rw [hfs]
    | temp _ _ hfree => exact absurd hfree hbefore
    | installs _ _ hfree => exact absurd hfree hbefore
  · exact h.other hpath htemp

theorem CallEffect.unchanged (h : CallEffect path tempPath before fs fs' w w')
    (hfinished : w'.finished = false) : fs' path = fs path := by
  cases h with
  | quiet hfs => rw [hfs]
  | temp _ hapart _ hfs => rw [hfs, FileSystem.set_ne _ _ hapart.symm]
  | installs _ _ _ _ hw => cases hw.symm.trans hfinished

theorem CallEffect.replaced (h : CallEffect path tempPath before fs fs' w w')
    (hfinished : w'.finished = true) :
    ∃ permissions, fs' path = some (.file w.contents permissions) := by
  cases h with
  | quiet _ hw => cases hw.symm.trans hfinished
  | temp _ _ _ _ hw => cases hw.symm.trans hfinished
  | installs permissions hapart _ hfs =>
    exact ⟨permissions, by rw [hfs, FileSystem.set_ne _ _ hapart.symm, FileSystem.set_self]⟩

theorem Writer.Calls.contents (h : w.Calls path tempPath openPermissions fs fs' w') :
    w'.contents = w.contents := by
  cases h <;> rfl

theorem Writer.finished_eq (w : Writer ε) :
    w.finished = true ↔ w.pc = .returned (.ok ()) := by
  rw [Writer.finished]
  split
  · next hpc => simp [hpc]
  · next hpc => simpa using hpc

theorem Writer.Calls.unfinished (h : w.Calls path tempPath openPermissions fs fs' w') :
    w.finished = false := by
  rw [Bool.eq_false_iff]
  intro hfinished
  have hpc := w.finished_eq.mp hfinished
  cases h with
  | returns h => rcases h with h | ⟨_, h⟩ <;> cases hpc.symm.trans h
  | fails h => simp [hpc, WriterPc.inClosure] at h
  | metadata h | opens h | setsPermissions h | writes h | written h | flushes h | renames h
  | removes h | leaves h => cases hpc.symm.trans h

theorem Writer.Calls.effect (h : w.Calls path tempPath openPermissions fs fs' w')
    (hinv : WriterInv path tempPath before fs w)
    (hforeign : ∀ p, p ≠ path → before p ≠ none → fs p = before p) :
    CallEffect path tempPath before fs fs' w w' := by
  cases h with
  | metadata | returns | written | flushes | fails | leaves => exact .quiet rfl rfl
  | opens hpc hfree =>
    rw [WriterInv, hpc] at hinv
    have hapart : tempPath ≠ path := by
      rintro rfl
      exact hinv.2 hfree
    have hbefore : before tempPath = none := by
      by_contra hsome
      exact hsome ((hforeign tempPath hapart hsome).symm.trans hfree)
    exact .temp _ hapart hbefore rfl rfl
  | setsPermissions hpc =>
    obtain ⟨written, ho⟩ := hinv.owned (by rw [hpc]; rfl)
    exact .temp _ ho.apart ho.free rfl rfl
  | writes hpc =>
    obtain ⟨written, ho⟩ := hinv.owned (by rw [hpc]; rfl)
    exact .temp _ ho.apart ho.free rfl rfl
  | renames hpc htemp =>
    rw [WriterInv, hpc] at hinv
    obtain ⟨permissions, hcontents⟩ := hinv.temp
    rw [htemp] at hcontents
    cases hcontents
    exact .installs _ hinv.apart hinv.free rfl rfl
  | removes hpc =>
    rw [WriterInv, hpc] at hinv
    obtain ⟨written, ho⟩ := hinv
    exact .temp _ ho.apart ho.free rfl rfl

theorem Writer.Calls.inv (h : w.Calls path tempPath openPermissions fs fs' w')
    (hinv : WriterInv path tempPath before fs w)
    (hforeign : ∀ p, p ≠ path → before p ≠ none → fs p = before p) :
    WriterInv path tempPath before fs' w' := by
  have heffect := h.effect hinv hforeign
  cases h with
  | metadata hpc hpath =>
    rw [WriterInv, hpc] at hinv
    exact ⟨hinv, by rw [hpath]; simp⟩
  | returns hpc =>
    intro hcreated
    rcases hpc with hpc | ⟨permissions, hpc⟩
    · rw [WriterInv, hpc] at hinv
      cases hcreated.symm.trans hinv.1
    · rw [WriterInv, hpc] at hinv
      cases hcreated.symm.trans hinv.1.1
  | opens hpc hfree =>
    rw [WriterInv, hpc] at hinv
    cases heffect with
    | temp entry hapart hbefore =>
      exact ⟨rfl, hinv.1.2, hapart, hbefore, _, FileSystem.set_self _ _ _⟩
    | quiet hfs =>
      have htemp := congrFun hfs tempPath
      rw [FileSystem.set_self, hfree] at htemp
      cases htemp
    | installs _ _ _ _ hfinished => cases hfinished
  | setsPermissions hpc htemp =>
    rw [WriterInv, hpc] at hinv
    obtain ⟨permissions, hempty⟩ := hinv.temp
    rw [htemp] at hempty
    cases hempty
    exact ⟨[], rfl, hinv.created, hinv.kept, hinv.apart, hinv.free, _, FileSystem.set_self _ _ _⟩
  | writes hpc htemp =>
    rw [WriterInv, hpc] at hinv
    obtain ⟨written, hcontents, ho⟩ := hinv
    obtain ⟨permissions, hwritten⟩ := ho.temp
    rw [htemp] at hwritten
    cases hwritten
    exact ⟨_, by rw [List.append_assoc]; exact hcontents, ho.created, ho.kept, ho.apart, ho.free, _,
      FileSystem.set_self _ _ _⟩
  | written hpc =>
    rw [WriterInv, hpc] at hinv
    obtain ⟨written, hcontents, ho⟩ := hinv
    rw [List.append_nil] at hcontents
    subst hcontents
    exact ⟨ho.created, ho.kept, ho.apart, ho.free, ho.temp⟩
  | flushes hpc =>
    rw [WriterInv, hpc] at hinv
    exact ⟨hinv.created, hinv.kept, hinv.apart, hinv.free, hinv.temp⟩
  | fails hpc =>
    obtain ⟨written, ho⟩ := hinv.owned hpc
    exact ⟨written, ho.created, ho.kept, ho.apart, ho.free, ho.temp⟩
  | renames hpc =>
    rw [WriterInv, hpc] at hinv
    exact ⟨hinv.created, hinv.apart, FileSystem.set_self _ _ _⟩
  | removes hpc =>
    rw [WriterInv, hpc] at hinv
    obtain ⟨written, ho⟩ := hinv
    exact fun _ => ⟨ho.apart, fun _ => FileSystem.set_self _ _ _⟩
  | leaves hpc =>
    rw [WriterInv, hpc] at hinv
    obtain ⟨written, ho⟩ := hinv
    exact fun _ => ⟨ho.apart, fun hremoved => by cases ho.kept.symm.trans hremoved⟩

end Call

end Iperf3Rs
