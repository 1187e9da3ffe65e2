import Iperf3Rs.JsonlRecords
import Mathlib.Logic.Function.Basic
import Mathlib.Logic.Relation

/-! Threads that write through one JSONL sink and its clones. A clone has the path and the mutex of
its sink. Each step of `append_jsonl` is a step of its own, and a `write` may take only some of the
bytes it is given. No write fails; an `open` may. -/

namespace Iperf3Rs

open JsonText

/-- A JSONL sink as a thread holds it; `jsonlWrite` is the identity of the mutex. -/
structure JsonlHandle where
  path : String
  jsonlWrite : ℕ
  deriving DecidableEq

def JsonlHandle.clone (handle : JsonlHandle) : JsonlHandle where
  path := handle.path
  jsonlWrite := handle.jsonlWrite

/-- The sink, its clones, their clones and so on. -/
inductive JsonlHandle.Clones (sink : JsonlHandle) : JsonlHandle → Prop
  | self : sink.Clones sink
  | clone (handle : JsonlHandle) (h : sink.Clones handle) : sink.Clones handle.clone

/-- The next step of a thread; `writing` holds the writes the serializer has still to do. -/
inductive JsonlPc (F : Type) where
  | between
  | opening (handle : JsonlHandle) (call : SinkCall F)
  | writing (handle : JsonlHandle) (call : SinkCall F) (rest : List (List UInt8))
  | unlocking (handle : JsonlHandle) (call : SinkCall F) (result : Except Error Unit)

structure JsonlThread (F : Type) where
  todo : List (JsonlHandle × SinkCall F)
  pc : JsonlPc F
  returned : List (SinkCall F × Except Error Unit)

/-- The contents of the files, the holders of the mutexes, and the threads. -/
structure JsonlWriters (Thread F : Type) where
  files : String → List UInt8
  holder : ℕ → Option Thread
  threads : Thread → JsonlThread F

inductive JsonlOutcome where
  | ok
  | wrote (count : ℕ)
  | fails
  deriving DecidableEq

namespace JsonlWriters

variable {Thread F : Type}

def start (files : String → List UInt8) (programs : Thread → List (JsonlHandle × SinkCall F)) :
    JsonlWriters Thread F where
  files := files
  holder _ := none
  threads t := { todo := programs t, pc := .between, returned := [] }

def setThread [DecidableEq Thread] (s : JsonlWriters Thread F) (t : Thread)
    (thread : JsonlThread F) : JsonlWriters Thread F :=
  { s with threads := Function.update s.threads t thread }

/-- The file is open for appending. -/
def append (s : JsonlWriters Thread F) (handle : JsonlHandle) (text : List UInt8) :
    JsonlWriters Thread F :=
  { s with files := Function.update s.files handle.path (s.files handle.path ++ text) }

def setHolder (s : JsonlWriters Thread F) (handle : JsonlHandle) (holder : Option Thread) :
    JsonlWriters Thread F :=
  { s with holder := Function.update s.holder handle.jsonlWrite holder }

def setPc [DecidableEq Thread] (s : JsonlWriters Thread F) (t : Thread) (pc : JsonlPc F) :
    JsonlWriters Thread F :=
  s.setThread t { s.threads t with pc := pc }

section Frame

variable (s : JsonlWriters Thread F) (handle : JsonlHandle)

@[simp] theorem append_self (text : List UInt8) :
    (s.append handle text).files handle.path = s.files handle.path ++ text := by
  simp [append]

@[simp] theorem append_threads (text : List UInt8) :
    (s.append handle text).threads = s.threads := rfl

@[simp] theorem setHolder_self (holder : Option Thread) :
    (s.setHolder handle holder).holder handle.jsonlWrite = holder := by
  simp [setHolder]

@[simp] theorem setHolder_threads (holder : Option Thread) :
    (s.setHolder handle holder).threads = s.threads := rfl

variable [DecidableEq Thread] (t : Thread) (thread : JsonlThread F)

@[simp] theorem setThread_self : (s.setThread t thread).threads t = thread := by
  simp [setThread]

theorem setThread_ne {u : Thread} (h : u ≠ t) :
    (s.setThread t thread).threads u = s.threads u := by
  simp [setThread, h]

@[simp] theorem setThread_holder : (s.setThread t thread).holder = s.holder := rfl

end Frame

end JsonlWriters

section Steps

variable {Thread F : Type} [DecidableEq Thread] [F64 F] (T : FloatText F)

namespace JsonlWriters

/-- The next step of the thread `t`. The guard is dropped last, when the file is closed. -/
def step (s : JsonlWriters Thread F) (t : Thread) (outcome : JsonlOutcome) :
    Option (JsonlWriters Thread F) :=
  match (s.threads t).pc, outcome with
  | .between, .ok =>
    match (s.threads t).todo with
    | [] => none
    | (handle, call) :: todo =>
      if (s.holder handle.jsonlWrite).isNone then
        some ((s.setHolder handle (some t)).setThread t
          { s.threads t with todo := todo, pc := .opening handle call })
      else none
  | .opening handle call, .ok =>
    some (s.setPc t (.writing handle call ((call.pieces T).map Text.bytes)))
  | .opening handle call, .fails =>
    let error := fileError "failed to open metrics file" handle.path
    some (s.setPc t (.unlocking handle call (.error error)))
  | .writing handle call (piece :: rest), .wrote count =>
    if count ≤ piece.length ∧ (0 < count ∨ piece = []) then
      let rest := if piece.drop count = [] then rest else piece.drop count :: rest
      some ((s.append handle (piece.take count)).setPc t (.writing handle call rest))
    else none
  | .writing handle call [], .ok =>
    some ((s.append handle [newline]).setPc t (.unlocking handle call (.ok ())))
  | .unlocking handle call result, .ok =>
    some ((s.setHolder handle none).setThread t
      { s.threads t with
        pc := .between
        returned := (s.threads t).returned ++ [(call, result)] })
  | _, _ => none

def Steps (s s' : JsonlWriters Thread F) : Prop := ∃ t outcome, s.step T t outcome = some s'

end JsonlWriters

/-- What one step of the thread `t` can do. -/
inductive JsonlWriters.StepOf (s : JsonlWriters Thread F) (t : Thread) :
    JsonlWriters Thread F → Prop where
  | locks (handle : JsonlHandle) (call : SinkCall F) (todo : List (JsonlHandle × SinkCall F))
      (hpc : (s.threads t).pc = .between) (htodo : (s.threads t).todo = (handle, call) :: todo)
      (hfree : s.holder handle.jsonlWrite = none) :
      StepOf s t ((s.setHolder handle (some t)).setThread t
        { s.threads t with todo := todo, pc := .opening handle call })
  | opens (handle : JsonlHandle) (call : SinkCall F)
      (hpc : (s.threads t).pc = .opening handle call) :
      StepOf s t (s.setPc t (.writing handle call ((call.pieces T).map Text.bytes)))
  | cannotOpen (handle : JsonlHandle) (call : SinkCall F) (e : Error)
      (hpc : (s.threads t).pc = .opening handle call) :
      StepOf s t (s.setPc t (.unlocking handle call (.error e)))
  | writes (handle : JsonlHandle) (call : SinkCall F) (piece : List UInt8)
      (pieces rest : List (List UInt8)) (text : List UInt8)
      (hpc : (s.threads t).pc = .writing handle call (piece :: pieces))
      (htext : text ++ rest.flatten = piece ++ pieces.flatten) :
      StepOf s t ((s.append handle text).setPc t (.writing handle call rest))
  | ends (handle : JsonlHandle) (call : SinkCall F)
      (hpc : (s.threads t).pc = .writing handle call []) :
      StepOf s t ((s.append handle [newline]).setPc t (.unlocking handle call (.ok ())))
  | unlocks (handle : JsonlHandle) (call : SinkCall F) (result : Except Error Unit)
      (hpc : (s.threads t).pc = .unlocking handle call result) :
      StepOf s t ((s.setHolder handle none).setThread t
        { s.threads t with pc := .between, returned := (s.threads t).returned ++ [(call, result)] })

theorem JsonlWriters.stepOf_of_step {s s' : JsonlWriters Thread F} {t : Thread}
    {outcome : JsonlOutcome} (h : s.step T t outcome = some s') : s.StepOf T t s' := by
  cases hpc : (s.threads t).pc with
  | between =>
    cases htodo : (s.threads t).todo with
    | nil => cases outcome <;> simp [JsonlWriters.step, hpc, htodo] at h
    | cons entry todo =>
      obtain ⟨handle, call⟩ := entry
      cases outcome with
      | wrote count => simp [JsonlWriters.step, hpc] at h
      | fails => simp [JsonlWriters.step, hpc] at h
      | ok =>
        simp only [JsonlWriters.step, hpc, htodo] at h
        split at h
        · next hfree =>
          cases h
          exact .locks handle call todo hpc htodo (Option.isNone_iff_eq_none.mp hfree)
        · cases h
  | opening handle call =>
    cases outcome with
    | wrote count => simp [JsonlWriters.step, hpc] at h
    | ok =>
      simp only [JsonlWriters.step, hpc] at h
      cases h
      exact .opens handle call hpc
    | fails =>
      simp only [JsonlWriters.step, hpc] at h
      cases h
      exact .cannotOpen handle call _ hpc
  | writing handle call pieces =>
    cases pieces with
    | nil =>
      cases outcome with
      | wrote count => simp [JsonlWriters.step, hpc] at h
      | fails => simp [JsonlWriters.step, hpc] at h
      | ok =>
        simp only [JsonlWriters.step, hpc] at h
        cases h
        exact .ends handle call hpc
    | cons piece pieces =>
      cases outcome with
      | ok => simp [JsonlWriters.step, hpc] at h
      | fails => simp [JsonlWriters.step, hpc] at h
      | wrote count =>
        simp only [JsonlWriters.step, hpc] at h
        split at h
        · cases h
          refine .writes handle call piece pieces _ _ hpc ?_
          -- the piece is used up, or its rest stays in front
          split
          · next hdrop =>
            have htake : piece.take count = piece := by
              have hall := List.take_append_drop count piece
              rwa [hdrop, List.append_nil] at hall
            rw [htake]
          · rw [List.flatten_cons, ← List.append_assoc, List.take_append_drop]
        · cases h
  | unlocking handle call result =>
    cases outcome with
    | wrote count => simp [JsonlWriters.step, hpc] at h
    | fails => simp [JsonlWriters.step, hpc] at h
    | ok =>
      simp only [JsonlWriters.step, hpc] at h
      cases h
      exact .unlocks handle call result hpc

end Steps

end Iperf3Rs
