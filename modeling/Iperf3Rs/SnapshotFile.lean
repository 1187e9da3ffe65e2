import Iperf3Rs.AtomicWriteSafety
import Iperf3Rs.MetricsFileJsonl
import Iperf3Rs.PrometheusSnapshot

/-! A metrics file in the Prometheus format, as anyone finds it who reads it while the sink and
its clones are writing. -/

namespace Iperf3Rs

variable {ε : Type}

namespace FileWrites

/-- Only an empty file has another mode. -/
def Guarded (permissions : ℕ) (temp : Option Entry) : Prop :=
  ∀ contents mode, temp = some (.file contents mode) → contents ≠ [] → mode = permissions

/-- The mode of the temporary file of a write, by where the write is. A file that could not be
removed keeps it. -/
def Permits (permissions openPermissions : ℕ) (temp : Option Entry) (w : Writer ε) : Prop :=
  match w.pc with
  | .metadata => True
  | .openingTemp read => read = permissions
  | .settingPermissions read =>
    read = permissions ∧ temp = some (.file [] openPermissions)
  | .writing _ | .flushing | .renamingTemp => ∃ contents, temp = some (.file contents permissions)
  | .removingTemp _ => Guarded permissions temp
  | .returned _ => w.created = true → Guarded permissions temp

structure PermissionsInv (cfg : FileSinkContext) (permissions : ℕ) (s : FileWrites ε) :
    Prop where
  destination : ∃ contents, s.fs cfg.path = some (.file contents permissions)
  writer : ∀ k w, s.writers k = some w →
    Permits permissions cfg.openPermissions (s.fs (cfg.tempPathFor k)) w

variable {cfg : FileSinkContext} {permissions : ℕ} {before : FileSystem} {s s' : FileWrites ε}

theorem guarded_none (permissions : ℕ) : Guarded permissions none := nofun

theorem guarded_empty (permissions openPermissions : ℕ) :
    Guarded permissions (some (.file [] openPermissions)) := by
  rintro contents mode h hne
  cases h
  exact absurd rfl hne

theorem guarded_mode (permissions : ℕ) (contents : List UInt8) :
    Guarded permissions (some (.file contents permissions)) := by
  rintro _ mode h -
  cases h
  rfl

theorem Permits.guarded {openPermissions : ℕ} {temp : Option Entry} {w : Writer ε}
    (h : Permits permissions openPermissions temp w) (hcreated : w.created = true)
    (hpc : w.pc ≠ .metadata ∧ ∀ read, w.pc ≠ .openingTemp read) : Guarded permissions temp := by
  rw [Permits] at h
  cases hw : w.pc with
  | metadata => exact absurd hw hpc.1
  | openingTemp read => exact absurd hw (hpc.2 read)
  | settingPermissions read =>
    rw [hw] at h
    rw [h.2]
    exact guarded_empty _ _
  | writing rest =>
    rw [hw] at h
    obtain ⟨contents, htemp⟩ := h
    rw [htemp]
    exact guarded_mode _ _
  | flushing | renamingTemp =>
    rw [hw] at h
    obtain ⟨contents, htemp⟩ := h
    rw [htemp]
    exact guarded_mode _ _
  | removingTemp e =>
    rw [hw] at h
    exact h
  | returned result =>
    rw [hw] at h
    exact h hcreated

theorem created_behind {path tempPath : PathBuf} {fs : FileSystem} {w : Writer ε}
    (h : WriterInv path tempPath before fs w) (hcreated : w.created = true) :
    w.pc ≠ .metadata ∧ ∀ read, w.pc ≠ .openingTemp read := by
  rw [WriterInv] at h
  constructor
  · intro hpc
    rw [hpc] at h
    cases h.1.symm.trans hcreated
  · intro read hpc
    rw [hpc] at h
    cases h.1.1.symm.trans hcreated

theorem permits_call {path tempPath : PathBuf} {openPermissions : ℕ} {fs fs' : FileSystem}
    {w w' : Writer ε} (h : w.Calls path tempPath openPermissions fs fs' w')
    (hinv : WriterInv path tempPath before fs w)
    (hpath : ∃ contents, fs path = some (.file contents permissions))
    (hpermits : Permits permissions openPermissions (fs tempPath) w) :
    Permits permissions openPermissions (fs' tempPath) w' ∧
      ∃ contents, fs' path = some (.file contents permissions) := by
  obtain ⟨old, hold⟩ := hpath
  have hset : tempPath ≠ path → ∀ entry, ∃ contents,
      fs.set tempPath entry path = some (.file contents permissions) := fun hapart entry =>
    ⟨old, (FileSystem.set_ne _ _ hapart.symm).trans hold⟩
  have howned : w.pc.inClosure = true → w.created = true ∧ tempPath ≠ path := fun hpc =>
    ⟨(hinv.owned hpc).choose_spec.created, (hinv.owned hpc).choose_spec.apart⟩
  cases h with
  | @metadata entry hpc hentry =>
    obtain rfl := Option.some.inj (hold.symm.trans hentry)
    exact ⟨rfl, old, hold⟩
  | returns hpc =>
    refine ⟨fun hcreated => ?_, old, hold⟩
    obtain ⟨hmetadata, hopening⟩ := created_behind hinv hcreated
    rcases hpc with hpc | ⟨read, hpc⟩
    · exact absurd hpc hmetadata
    · exact absurd hpc (hopening read)
  | opens hpc hfree =>
    rw [Permits, hpc] at hpermits
    refine ⟨⟨hpermits, FileSystem.set_self _ _ _⟩, hset ?_ _⟩
    rintro rfl
    cases hfree.symm.trans hold
  | @setsPermissions read mode contents hpc htemp =>
    rw [Permits, hpc] at hpermits
    obtain ⟨rfl, -⟩ := hpermits
    exact ⟨⟨contents, FileSystem.set_self _ _ _⟩, hset (howned (by rw [hpc]; rfl)).2 _⟩
  | @writes chunk rest contents mode hpc htemp =>
    rw [Permits, hpc] at hpermits
    obtain ⟨written, hwritten⟩ := hpermits
    obtain ⟨rfl, rfl⟩ := Entry.file.inj (Option.some.inj (hwritten.symm.trans htemp))
    exact ⟨⟨_, FileSystem.set_self _ _ _⟩, hset (howned (by rw [hpc]; rfl)).2 _⟩
  | written hpc =>
    rw [Permits, hpc] at hpermits
    exact ⟨hpermits, old, hold⟩
  | flushes hpc =>
    rw [Permits, hpc] at hpermits
    exact ⟨hpermits, old, hold⟩
  | fails hpc =>
    have hcreated := (howned hpc).1
    exact ⟨hpermits.guarded hcreated (created_behind hinv hcreated), old, hold⟩
  | @renames contents mode hpc htemp =>
    rw [Permits, hpc] at hpermits
    obtain ⟨written, hwritten⟩ := hpermits
    obtain ⟨rfl, rfl⟩ := Entry.file.inj (Option.some.inj (hwritten.symm.trans htemp))
    have hne := (howned (by rw [hpc]; rfl)).2
    refine ⟨fun _ => ?_, written, ?_⟩
    · rw [FileSystem.set_self]
      exact guarded_none _
    · rw [FileSystem.set_ne _ _ hne.symm, FileSystem.set_self]
  | removes hpc =>
    rw [WriterInv, hpc] at hinv
    obtain ⟨written, howned⟩ := hinv
    refine ⟨fun _ => ?_, hset howned.apart _⟩
    rw [FileSystem.set_self]
    exact guarded_none _
  | leaves hpc =>
    rw [Permits, hpc] at hpermits
    exact ⟨fun _ => hpermits, old, hold⟩

theorem Permits.frame {path tempPath : PathBuf} {fs fs' : FileSystem} {w : Writer ε}
    {openPermissions : ℕ} (hinv : WriterInv path tempPath before fs w)
    (h : Permits permissions openPermissions (fs tempPath) w)
    (htemp : tempPath ≠ path → fs' tempPath = fs tempPath) :
    Permits permissions openPermissions (fs' tempPath) w := by
  rw [Permits] at h ⊢
  cases hpc : w.pc with
  | metadata => trivial
  | openingTemp read =>
    rw [hpc] at h
    exact h
  | removingTemp e =>
    rw [WriterInv, hpc] at hinv
    obtain ⟨written, howned⟩ := hinv
    rw [hpc] at h
    rwa [htemp howned.apart]
  | returned result =>
    rw [hpc] at h
    intro hcreated
    have hapart : tempPath ≠ path := by
      rw [WriterInv, hpc] at hinv
      cases result with
      | ok => exact hinv.2.1
      | error => exact (hinv hcreated).1
    rw [htemp hapart]
    exact h hcreated
  | settingPermissions _ | writing _ | flushing | renamingTemp =>
    obtain ⟨written, howned⟩ := hinv.owned (by rw [hpc]; rfl)
    rw [hpc] at h
    rwa [htemp howned.apart]

theorem PermissionsInv.step (hi : s.Inv cfg before) (h : s.PermissionsInv cfg permissions)
    {action : WriteAction ε} (hstep : s.step cfg action = some s') :
    s'.PermissionsInv cfg permissions := by
  cases action with
  | begin contents =>
    cases hstep
    refine ⟨h.destination, fun k w hw => ?_⟩
    rcases writers_update hw with ⟨rfl, rfl⟩ | ⟨-, hw⟩
    · trivial
    · exact h.writer k w hw
  | call k outcome =>
    obtain ⟨w, fs', w', hw, hcall, rfl⟩ := step_call hstep
    have hinv := hi.writer k w hw
    have hown := permits_call hcall hinv h.destination (h.writer k w hw)
    refine ⟨hown.2, fun j v hv => ?_⟩
    rcases writers_update hv with ⟨rfl, rfl⟩ | ⟨hne, hv⟩
    · exact hown.1
    · refine (h.writer j v hv).frame (hi.writer j v hv) fun hapart => ?_
      exact (hcall.effect hinv hi.foreign).other hapart fun he =>
        hne (cfg.tempPathFor_injective he)

theorem PermissionsInv.run (hi : s.Inv cfg before) (h : s.PermissionsInv cfg permissions)
    {actions : List (WriteAction ε)} (hrun : s.run cfg actions = some s') :
    s'.PermissionsInv cfg permissions := by
  induction actions generalizing s with
  | nil =>
    cases hrun
    exact h
  | cons action actions ih =>
    cases hstep : s.step cfg action with
    | none => simp [FileWrites.run, hstep] at hrun
    | some t =>
      have hrest : t.run cfg actions = some s' := by simpa [FileWrites.run, hstep] using hrun
      have hone : s.run cfg [action] = some t := by simp [FileWrites.run, hstep]
      exact ih (hi.run hone) (h.step hi hstep) hrest

/-- A write that nothing disturbs goes through. -/
theorem run_write (s : FileWrites ε) {contents old : List UInt8} {permissions : ℕ}
    (hne : contents ≠ []) (hpath : s.fs cfg.path = some (.file old permissions))
    (hfree : s.fs (cfg.tempPathFor s.counter) = none) (actions : List (WriteAction ε)) :
    s.run cfg (.begin contents :: .call s.counter .ok :: .call s.counter .ok ::
        .call s.counter .ok :: .call s.counter (.wrote contents.length) :: .call s.counter .ok ::
        .call s.counter .ok :: .call s.counter .ok :: actions) =
      run cfg
        { fs := s.fs.set cfg.path (some (.file contents permissions))
          counter := s.counter + 1
          writers := Function.update s.writers s.counter
            (some ⟨contents, .returned (.ok ()), true, false⟩)
          installed := s.installed ++ [s.counter] } actions := by
  obtain ⟨byte, rest, rfl⟩ := List.exists_cons_of_ne_nil hne
  have hapart : cfg.tempPathFor s.counter ≠ cfg.path := by
    intro he
    rw [he, hpath] at hfree
    cases hfree
  have hfs : Function.update (Function.update (Function.update s.fs (cfg.tempPathFor s.counter)
      (some (Entry.file (byte :: rest) permissions))) cfg.path
        (some (Entry.file (byte :: rest) permissions))) (cfg.tempPathFor s.counter) none =
      Function.update s.fs cfg.path (some (Entry.file (byte :: rest) permissions)) := by
    rw [Function.update_comm hapart.symm, Function.update_idem, ← hfree, Function.update_eq_self]
  simp [run, step, Writer.call, Writer.new, hpath, hfree, Entry.permissions, FileSystem.set,
    Function.update_of_ne hapart.symm, Writer.finished, hfs]

/-- A write whose flush fails, and whose file cannot be removed. -/
theorem run_left (s : FileWrites ε) {contents old : List UInt8} {permissions : ℕ} (e e' : ε)
    (hne : contents ≠ []) (hpath : s.fs cfg.path = some (.file old permissions))
    (hfree : s.fs (cfg.tempPathFor s.counter) = none) (actions : List (WriteAction ε)) :
    s.run cfg (.begin contents :: .call s.counter .ok :: .call s.counter .ok ::
        .call s.counter .ok :: .call s.counter (.wrote contents.length) :: .call s.counter .ok ::
        .call s.counter (.fails e) :: .call s.counter (.fails e') :: actions) =
      run cfg
        { fs := s.fs.set (cfg.tempPathFor s.counter) (some (.file contents permissions))
          counter := s.counter + 1
          writers := Function.update s.writers s.counter
            (some ⟨contents, .returned (.error e), true, false⟩)
          installed := s.installed } actions := by
  obtain ⟨byte, rest, rfl⟩ := List.exists_cons_of_ne_nil hne
  simp [run, step, Writer.call, Writer.new, hpath, hfree, Entry.permissions, FileSystem.set,
    Writer.finished]

/-- What the writes of a run are given, in the order of their counter values. -/
def begun : List (WriteAction ε) → List (List UInt8)
  | [] => []
  | .begin contents :: actions => contents :: begun actions
  | .call _ _ :: actions => begun actions

theorem counter_step {action : WriteAction ε} (hstep : s.step cfg action = some s') :
    s'.counter = s.counter + (begun [action]).length := by
  cases action with
  | begin contents =>
    cases hstep
    rfl
  | call k outcome =>
    obtain ⟨w, fs', w', hw, hcall, rfl⟩ := step_call hstep
    rfl

theorem contents_step {action : WriteAction ε}
    (hstep : s.step cfg action = some s') {k : ℕ} {w' : Writer ε}
    (hw' : s'.writers k = some w') :
    (∃ w, s.writers k = some w ∧ w'.contents = w.contents) ∨
      (action = .begin w'.contents ∧ k = s.counter) := by
  cases action with
  | begin contents =>
    cases hstep
    rcases writers_update hw' with ⟨rfl, rfl⟩ | ⟨-, hw⟩
    · exact .inr ⟨rfl, rfl⟩
    · exact .inl ⟨w', hw, rfl⟩
  | call j outcome =>
    obtain ⟨w, fs', v, hw, hcall, rfl⟩ := step_call hstep
    rcases writers_update hw' with ⟨rfl, rfl⟩ | ⟨-, hw'⟩
    · exact .inl ⟨w, hw, hcall.contents⟩
    · exact .inl ⟨w', hw', rfl⟩

theorem contents_run {actions : List (WriteAction ε)}
    (hrun : s.run cfg actions = some s') {k : ℕ} {w' : Writer ε} (hw' : s'.writers k = some w') :
    (∃ w, s.writers k = some w ∧ w'.contents = w.contents) ∨
      (s.counter ≤ k ∧ (begun actions)[k - s.counter]? = some w'.contents) := by
  induction actions generalizing s with
  | nil =>
    cases hrun
    exact .inl ⟨w', hw', rfl⟩
  | cons action actions ih =>
    cases hstep : s.step cfg action with
    | none => simp [FileWrites.run, hstep] at hrun
    | some t =>
      have hrest : t.run cfg actions = some s' := by simpa [FileWrites.run, hstep] using hrun
      have hcounter := counter_step hstep
      rcases ih hrest with ⟨w, hw, hcontents⟩ | ⟨hle, hget⟩
      · rcases contents_step hstep hw with ⟨v, hv, hsame⟩ | ⟨rfl, rfl⟩
        · exact .inl ⟨v, hv, hcontents.trans hsame⟩
        · refine .inr ⟨Nat.le_refl _, ?_⟩
          rw [Nat.sub_self, hcontents]
          rfl
      · refine .inr ⟨by omega, ?_⟩
        cases action with
        | begin contents =>
          have hone' : (begun [WriteAction.begin (ε := ε) contents]).length = 1 := rfl
          rw [show k - s.counter = (k - t.counter) + 1 by omega]
          exact hget
        | call j outcome =>
          have hnone : (begun [WriteAction.call j outcome]).length = 0 := rfl
          rw [show k - s.counter = k - t.counter by omega]
          exact hget

end FileWrites

structure SnapshotSink where
  cfg : FileSinkContext
  encoder : PrometheusEncoder

/-- `with_prefix_and_labels`. A new file has the mode that the platform gives it, an existing one
is emptied. -/
def SnapshotSink.withPrefixAndLabels (cfg : FileSinkContext) (metricPrefix : String)
    (labels : List (String × String)) (creates : Bool) (newPermissions : ℕ) (fs : FileSystem) :
    Except Error SnapshotSink × FileSystem :=
  match PrometheusEncoder.withLabels metricPrefix labels with
  | .error e => (.error e, fs)
  | .ok encoder =>
    if !creates then (.error ⟨.metricsFile, "failed to create metrics file"⟩, fs)
    else
      match fs cfg.path with
      | some (.directory _) => (.error ⟨.metricsFile, "failed to create metrics file"⟩, fs)
      | some (.file _ permissions) =>
        (.ok ⟨cfg, encoder⟩, fs.set cfg.path (some (.file [] permissions)))
      | none => (.ok ⟨cfg, encoder⟩, fs.set cfg.path (some (.file [] newPermissions)))

section Sink

variable {F : Type} [F64 F] (T : Exposition.NumberText F)

def SinkCall.snapshotFields : SinkCall F → List (Field F)
  | .interval metrics | .event (.interval metrics) => intervalFields metrics
  | .window metrics | .event (.window metrics) => windowFields metrics

/-- What `write_interval`, `write_window` and `write_event` hand to `atomic_write`. -/
def SnapshotSink.encode (sink : SnapshotSink) : SinkCall F → String
  | .interval metrics | .event (.interval metrics) => sink.encoder.encodeInterval T.toText metrics
  | .window metrics | .event (.window metrics) => sink.encoder.encodeWindow T.toText metrics

inductive SnapshotAction (F ε : Type) where
  | write (call : SinkCall F)
  | call (writer : ℕ) (outcome : CallOutcome ε)

def SnapshotSink.action (sink : SnapshotSink) : SnapshotAction F ε → WriteAction ε
  | .write call => .begin (Text.bytes (sink.encode T call))
  | .call writer outcome => .call writer outcome

/-- The calls of a run, in the order in which they have taken their temporary names. -/
def snapshotCalls : List (SnapshotAction F ε) → List (SinkCall F)
  | [] => []
  | .write call :: actions => call :: snapshotCalls actions
  | .call _ _ :: actions => snapshotCalls actions

theorem begun_map (sink : SnapshotSink) (actions : List (SnapshotAction F ε)) :
    FileWrites.begun (actions.map (sink.action T)) =
      (snapshotCalls actions).map fun call => Text.bytes (sink.encode T call) := by
  induction actions with
  | nil => rfl
  | cons action actions ih =>
    cases action with
    | write call => exact congrArg _ ih
    | call writer outcome => exact ih

theorem SnapshotSink.withPrefixAndLabels_ok {cfg : FileSinkContext} {metricPrefix : String}
    {labels : List (String × String)} {creates : Bool} {newPermissions : ℕ} {fs fs' : FileSystem}
    {sink : SnapshotSink}
    (h : withPrefixAndLabels cfg metricPrefix labels creates newPermissions fs = (.ok sink, fs')) :
    PrometheusEncoder.withLabels metricPrefix labels = .ok sink.encoder ∧ sink.cfg = cfg ∧
      fs' cfg.path = some (.file [] (((fs cfg.path).map Entry.permissions).getD newPermissions)) := by
  rw [withPrefixAndLabels] at h
  cases hencoder : PrometheusEncoder.withLabels metricPrefix labels with
  | error e =>
    rw [hencoder] at h
    cases h
  | ok encoder =>
    cases creates with
    | false =>
      rw [hencoder] at h
      cases h
    | true =>
      cases hpath : fs cfg.path with
      | none =>
        simp only [hencoder, hpath, Bool.not_true, Bool.false_eq_true, if_false] at h
        cases h
        exact ⟨rfl, rfl, FileSystem.set_self _ _ _⟩
      | some entry =>
        cases entry with
        | directory permissions =>
          simp only [hencoder, hpath, Bool.not_true, Bool.false_eq_true, if_false] at h
          cases h
        | file contents permissions =>
          simp only [hencoder, hpath, Bool.not_true, Bool.false_eq_true, if_false] at h
          cases h
          exact ⟨rfl, rfl, FileSystem.set_self _ _ _⟩

theorem SnapshotSink.snapshot_encode {metricPrefix : String} {labels : List (String × String)}
    {sink : SnapshotSink}
    (h : PrometheusEncoder.withLabels metricPrefix labels = .ok sink.encoder)
    (call : SinkCall F) :
    Snapshot T metricPrefix labels call.snapshotFields (sink.encode T call) := by
  obtain ⟨hpre, hlabels⟩ := PrometheusEncoder.withLabels_eq_ok.mp ⟨_, h⟩
  have hidentifier : isIdentifier metricPrefix = true := by
    by_contra hnot
    rw [validateMetricPrefix, isValidMetricPrefix, if_neg hnot] at hpre
    cases hpre
  have hencoder : sink.encoder = ⟨metricPrefix, labels⟩ := by
    rw [PrometheusEncoder.withLabels, hpre, hlabels] at h
    exact (Except.ok.inj h).symm
  have hinterval : ∀ metrics : Metrics F, Snapshot T metricPrefix labels (intervalFields metrics)
      (sink.encoder.encodeInterval T.toText metrics) := by
    intro metrics
    rw [hencoder, PrometheusEncoder.encodeInterval, renderInterval_eq]
    exact snapshot_of_fields T hidentifier hlabels (intervalNames_legal metrics)
  have hwindow : ∀ metrics : WindowMetrics F, Snapshot T metricPrefix labels
      (windowFields metrics) (sink.encoder.encodeWindow T.toText metrics) := by
    intro metrics
    rw [hencoder, PrometheusEncoder.encodeWindow, renderWindow_eq]
    exact snapshot_of_fields T hidentifier hlabels (windowNames_legal metrics)
  cases call with
  | interval metrics => exact hinterval metrics
  | window metrics => exact hwindow metrics
  | event event =>
    cases event with
    | interval metrics => exact hinterval metrics
    | window metrics => exact hwindow metrics

omit [F64 F] in
theorem Snapshot.bytes_ne_nil {metricPrefix : String} {labels : List (String × String)}
    {fields : List (Field F)} {text : String} (h : Snapshot T metricPrefix labels fields text)
    {field : Field F} (hfield : field ∈ fields) (hsome : field.2.isSome = true) :
    Text.bytes text ≠ [] := by
  intro hnil
  obtain rfl : text = "" := Text.bytes_injective hnil
  have hpresent := (h.present field hfield).mpr hsome
  have hempty : gaugeFamilies metricPrefix labels fields = [] :=
    (Option.some.inj (h.parsed.symm.trans rfl))
  rw [hempty] at hpresent
  cases hpresent

/-- Whoever reads the file, at any moment of any interleaving of writes that may fail anywhere,
finds it with the mode it had, and either empty, when no write has come to its end, or with the
whole snapshot of one sample, which is that of the last write that has. A temporary file that a
write has created, also one that it could not remove, has this mode too as soon as it has a byte. -/
theorem snapshot_file {cfg : FileSinkContext} {metricPrefix : String}
    {labels : List (String × String)} {creates : Bool} {newPermissions counter : ℕ}
    {before fs : FileSystem} {sink : SnapshotSink}
    (hsink : SnapshotSink.withPrefixAndLabels cfg metricPrefix labels creates newPermissions
      before = (.ok sink, fs))
    {actions : List (SnapshotAction F ε)} {s : FileWrites ε}
    (hrun : (FileWrites.start fs counter).run cfg (actions.map (sink.action T)) = some s) :
    let permissions := ((before cfg.path).map Entry.permissions).getD newPermissions
    (∃ text, s.fs cfg.path = some (.file (Text.bytes text) permissions) ∧
      ((s.installed = [] ∧ text = "") ∨
        ∃ k call, s.installed.getLast? = some k ∧ counter ≤ k ∧
          (snapshotCalls actions)[k - counter]? = some call ∧
          Snapshot T metricPrefix labels call.snapshotFields text)) ∧
    ∀ k w contents mode, s.writers k = some w → w.created = true →
      s.fs (cfg.tempPathFor k) = some (.file contents mode) → contents ≠ [] →
        mode = permissions := by
  obtain ⟨hencoder, -, hcreated⟩ := SnapshotSink.withPrefixAndLabels_ok hsink
  have hbegin : (FileWrites.start fs counter : FileWrites ε).Inv cfg _ :=
    FileWrites.inv_start fs counter
  have hi := hbegin.run hrun
  have hstart : (FileWrites.start fs counter : FileWrites ε).PermissionsInv cfg _ :=
    ⟨⟨[], hcreated⟩, fun _ _ hw => by cases hw⟩
  have hpermissions := hstart.run hbegin hrun
  obtain ⟨contents, hfile⟩ := hpermissions.destination
  refine ⟨?_, fun k w contents mode hw hpc htemp hne => ?_⟩
  · have hdestination := hi.destination
    rw [FileWrites.Destination] at hdestination
    cases hlast : s.installed.getLast? with
    | none =>
      rw [hlast] at hdestination
      have hnil : s.installed = [] := List.getLast?_eq_none_iff.mp hlast
      exact ⟨"", hdestination.trans hcreated, .inl ⟨hnil, rfl⟩⟩
    | some k =>
      rw [hlast] at hdestination
      obtain ⟨w, mode, hw, -, hcontents⟩ := hdestination
      obtain ⟨rfl, rfl⟩ := Entry.file.inj (Option.some.inj (hfile.symm.trans hcontents))
      rcases FileWrites.contents_run hrun hw with ⟨v, hv, -⟩ | ⟨hle, hbegun⟩
      · cases hv
      · rw [begun_map, List.getElem?_map] at hbegun
        obtain ⟨call, hcall, hsame⟩ := Option.map_eq_some_iff.mp hbegun
        refine ⟨sink.encode T call, ?_, .inr ⟨k, call, rfl, hle, hcall, ?_⟩⟩
        · rw [hfile, hsame]
        · exact SnapshotSink.snapshot_encode T hencoder call
  · have hbehind := FileWrites.created_behind (hi.writer k w hw) hpc
    have hguarded := (hpermissions.writer k w hw).guarded hpc hbehind
    exact hguarded contents mode htemp hne

attribute [local instance] instF64Nat

/-- The first write comes to its end, the second cannot flush its file nor remove it. -/
theorem snapshot_file_written : ∃ (sink : SnapshotSink) (fs : FileSystem) (s : FileWrites String)
    (text left : String), SnapshotSink.withPrefixAndLabels ⟨[.normal [109]], 7, fun _ => "m", 384⟩
      "nettest" [("site", "ci")] true 420 previousSnapshot = (.ok sink, fs) ∧
    s.fs [.normal [109]] = some (.file (Text.bytes text) 420) ∧
    Snapshot decimalText "nettest" [("site", "ci")] (intervalFields Metrics.default) text ∧
    ∃ mode, s.fs (sink.cfg.tempPathFor 4) = some (.file (Text.bytes left) mode) ∧ mode = 420 := by
  let cfg : FileSinkContext := ⟨[.normal [109]], 7, fun _ => "m", 384⟩
  let sink : SnapshotSink := ⟨cfg, ⟨"nettest", [("site", "ci")]⟩⟩
  let emptied := previousSnapshot.set cfg.path (some (.file [] 420))
  let call : SinkCall ℕ := .interval Metrics.default
  have hsink : SnapshotSink.withPrefixAndLabels cfg "nettest" [("site", "ci")] true 420
      previousSnapshot = (.ok sink, emptied) := rfl
  obtain ⟨hencoder, -, -⟩ := SnapshotSink.withPrefixAndLabels_ok hsink
  let bytes := Text.bytes (sink.encode decimalText call)
  have hbytes : bytes ≠ [] :=
    (SnapshotSink.snapshot_encode decimalText hencoder call).bytes_ne_nil decimalText
      (List.mem_cons_self ..) rfl
  let mid : FileWrites String := ⟨emptied.set cfg.path (some (.file bytes 420)), 4,
    Function.update (fun _ => none) 3 (some ⟨bytes, .returned (.ok ()), true, false⟩), [3]⟩
  let last : FileWrites String := ⟨mid.fs.set (cfg.tempPathFor 4) (some (.file bytes 420)), 5,
    Function.update mid.writers 4 (some ⟨bytes, .returned (.error "no space"), true, false⟩), [3]⟩
  have hrun : (FileWrites.start emptied 3).run cfg (List.map (sink.action decimalText)
      [.write call, .call 3 .ok, .call 3 .ok, .call 3 .ok, .call 3 (.wrote bytes.length), .call 3 .ok,
        .call 3 .ok, .call 3 .ok, .write call, .call 4 .ok, .call 4 .ok, .call 4 .ok,
        .call 4 (.wrote bytes.length), .call 4 .ok, .call 4 (.fails "no space"),
        .call 4 (.fails "busy")]) = some last :=
    (FileWrites.run_write (.start emptied 3) hbytes rfl rfl _).trans
      (FileWrites.run_left mid "no space" "busy" hbytes rfl rfl [])
  obtain ⟨⟨text, hfile, hread⟩, htemp⟩ := snapshot_file decimalText hsink hrun
  rcases hread with ⟨hnone, -⟩ | ⟨k, found, hlast, -, hcall, hsnapshot⟩
  · cases hnone
  · obtain rfl : 3 = k := Option.some.inj hlast
    obtain rfl : call = found := Option.some.inj hcall
    have hwriter : last.writers 4 =
        some ⟨bytes, .returned (.error "no space"), true, false⟩ := rfl
    have hleft : last.fs (cfg.tempPathFor 4) = some (.file bytes 420) := FileSystem.set_self _ _ _
    exact ⟨sink, emptied, last, text, _, hsink, hfile, hsnapshot, 420, hleft,
      htemp 4 _ bytes 420 hwriter rfl hleft hbytes⟩

end Sink

end Iperf3Rs
