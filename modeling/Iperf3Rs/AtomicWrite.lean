import Iperf3Rs.RustText
import Mathlib.Logic.Function.Basic

/-! Replacing the metrics file by a temporary file and a rename. Any number of writes through
one sink and its clones run at once: every call to the file system is a step of its own, and the
environment decides how each call ends. -/

namespace Iperf3Rs

inductive Component where
  | rootDir
  | curDir
  | parentDir
  | normal (name : List UInt8)
  deriving DecidableEq

abbrev PathBuf := List Component

def PathBuf.parent (path : PathBuf) : Option PathBuf :=
  match path.getLast? with
  | none | some .rootDir => none
  | some _ => some path.dropLast

def PathBuf.fileName (path : PathBuf) : Option (List UInt8) :=
  match path.getLast? with
  | some (.normal name) => some name
  | _ => none

/-- What a write reads from the sink and its surroundings. `openPermissions` is the mode the
platform gives to a file opened with mode 0600. -/
structure FileSinkContext where
  path : PathBuf
  processId : ℕ
  toStringLossy : List UInt8 → String
  openPermissions : ℕ

def FileSinkContext.tempPathFor (cfg : FileSinkContext) (counter : ℕ) : PathBuf :=
  let parent := (PathBuf.parent cfg.path |>.filter (· ≠ [])).getD [.curDir]
  let fileName := (PathBuf.fileName cfg.path |>.map cfg.toStringLossy).getD "metrics"
  parent ++ [.normal (Text.bytes s!".{fileName}.tmp-{cfg.processId}-{counter}")]

theorem FileSinkContext.tempPathFor_injective (cfg : FileSinkContext) :
    Function.Injective cfg.tempPathFor := by
  intro left right h
  have hlast := List.append_cancel_left h
  simp only [List.cons.injEq, Component.normal.injEq, and_true] at hlast
  have hname := congrArg String.toList (Text.bytes_injective hlast)
  have hdigits : (toString left).toList = (toString right).toList := by
    simpa [String.toList_append] using hname
  have hvalue := congrArg Text.decimal hdigits
  rwa [Text.decimal_toString, Text.decimal_toString] at hvalue

inductive Entry where
  | file (contents : List UInt8) (permissions : ℕ)
  | directory (permissions : ℕ)
  deriving DecidableEq

def Entry.permissions : Entry → ℕ
  | .file _ permissions => permissions
  | .directory permissions => permissions

abbrev FileSystem := PathBuf → Option Entry

def FileSystem.set (fs : FileSystem) (path : PathBuf) (entry : Option Entry) : FileSystem :=
  Function.update fs path entry

/-- The next call of `write_temp_then_rename`; `writing` holds what `write_all` has left. -/
inductive WriterPc (ε : Type) where
  | metadata
  | openingTemp (permissions : ℕ)
  | settingPermissions (permissions : ℕ)
  | writing (rest : List UInt8)
  | flushing
  | renamingTemp
  | removingTemp (error : ε)
  | returned (result : Except ε Unit)

/-- How the environment ends a call. A successful `write` takes `wrote` bytes, at least one. -/
inductive CallOutcome (ε : Type) where
  | ok
  | wrote (count : ℕ)
  | fails (error : ε)

/-- `created` and `removed` are histories: the temporary file was opened, and it was removed. -/
structure Writer (ε : Type) where
  contents : List UInt8
  pc : WriterPc ε
  created : Bool
  removed : Bool

variable {ε : Type}

def Writer.new (contents : List UInt8) : Writer ε where
  contents := contents
  pc := .metadata
  created := false
  removed := false

def Writer.finished (w : Writer ε) : Bool :=
  match w.pc with
  | .returned (.ok ()) => true
  | _ => false

/-- One call of `write_temp_then_rename`, or `write_all` coming to its end. The closure's errors
all lead to `remove_file`, the errors before it return at once. -/
def Writer.call (path tempPath : PathBuf) (openPermissions : ℕ) (fs : FileSystem) (w : Writer ε)
    (outcome : CallOutcome ε) : Option (FileSystem × Writer ε) :=
  match w.pc, outcome with
  | .metadata, .ok =>
    match fs path with
    | some entry => some (fs, { w with pc := .openingTemp entry.permissions })
    | none => none
  | .metadata, .fails e => some (fs, { w with pc := .returned (.error e) })
  | .openingTemp permissions, .ok =>
    match fs tempPath with
    | some _ => none
    | none => some (fs.set tempPath (some (.file [] openPermissions)),
        { w with pc := .settingPermissions permissions, created := true })
  | .openingTemp _, .fails e => some (fs, { w with pc := .returned (.error e) })
  | .settingPermissions permissions, .ok =>
    match fs tempPath with
    | some (.file contents _) => some (fs.set tempPath (some (.file contents permissions)),
        { w with pc := .writing w.contents })
    | _ => none
  | .settingPermissions _, .fails e => some (fs, { w with pc := .removingTemp e })
  | .writing [], .ok => some (fs, { w with pc := .flushing })
  | .writing (byte :: rest), .wrote count =>
    match fs tempPath with
    | some (.file contents permissions) =>
      if 0 < count ∧ count ≤ rest.length + 1 then
        some (fs.set tempPath
            (some (.file (contents ++ (byte :: rest).take count) permissions)),
          { w with pc := .writing ((byte :: rest).drop count) })
      else none
    | _ => none
  | .writing (_ :: _), .fails e => some (fs, { w with pc := .removingTemp e })
  | .flushing, .ok => some (fs, { w with pc := .renamingTemp })
  | .flushing, .fails e => some (fs, { w with pc := .removingTemp e })
  | .renamingTemp, .ok =>
    match fs tempPath, fs path with
    | _, some (.directory _) => none
    | some (.file contents permissions), _ =>
      some ((fs.set path (some (.file contents permissions))).set tempPath none,
        { w with pc := .returned (.ok ()) })
    | _, _ => none
  | .renamingTemp, .fails e => some (fs, { w with pc := .removingTemp e })
  | .removingTemp e, .ok =>
    match fs tempPath with
    | some (.file _ _) =>
      some (fs.set tempPath none, { w with pc := .returned (.error e), removed := true })
    | _ => none
  | .removingTemp e, .fails _ => some (fs, { w with pc := .returned (.error e) })
  | _, _ => none

/-- The writes in flight, each under the counter value of its `temp_path_for`. `installed` is a
history of the renames, in their order. -/
structure FileWrites (ε : Type) where
  fs : FileSystem
  counter : ℕ
  writers : ℕ → Option (Writer ε)
  installed : List ℕ

def FileWrites.start (fs : FileSystem) (counter : ℕ) : FileWrites ε where
  fs := fs
  counter := counter
  writers := fun _ => none
  installed := []

inductive WriteAction (ε : Type) where
  | begin (contents : List UInt8)
  | call (writer : ℕ) (outcome : CallOutcome ε)

variable (cfg : FileSinkContext)

def FileWrites.step (s : FileWrites ε) : WriteAction ε → Option (FileWrites ε)
  | .begin contents => some
      { s with
        counter := s.counter + 1
        writers := Function.update s.writers s.counter (some (.new contents)) }
  | .call k outcome =>
    match s.writers k with
    | none => none
    | some w =>
      match w.call cfg.path (cfg.tempPathFor k) cfg.openPermissions s.fs outcome with
      | none => none
      | some (fs, w') => some
        { s with
          fs := fs
          writers := Function.update s.writers k (some w')
          installed := if w'.finished then s.installed ++ [k] else s.installed }

/-- A run may stop after any action. -/
def FileWrites.run : FileWrites ε → List (WriteAction ε) → Option (FileWrites ε)
  | s, [] => some s
  | s, action :: actions =>
    match s.step cfg action with
    | some s' => s'.run actions
    | none => none

end Iperf3Rs
