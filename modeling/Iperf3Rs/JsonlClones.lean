import Iperf3Rs.JsonlFile
import Iperf3Rs.JsonlWriters
import Iperf3Rs.KeyedFold

/-! The threads that write through a JSONL sink and its clones share its mutex, and the mutex is
held from before the `open` to behind the newline. So the file is complete records and what the
holder has written of the next one. -/

namespace Iperf3Rs

open JsonText LineText

theorem JsonlHandle.Clones.eq {sink handle : JsonlHandle} (h : sink.Clones handle) :
    handle = sink := by
  induction h with
  | self => rfl
  | clone handle h ih => exact ih

section Threads

variable {F : Type}

/-- The handle a call goes through, from its `lock` to its unlock. -/
def JsonlPc.handle : JsonlPc F → Option JsonlHandle
  | .between => none
  | .opening handle _ | .writing handle _ _ | .unlocking handle _ _ => some handle

def JsonlPc.call : JsonlPc F → Option (SinkCall F)
  | .between => none
  | .opening _ call | .writing _ call _ | .unlocking _ call _ => some call

def JsonlPc.result : JsonlPc F → List (SinkCall F × Except Error Unit)
  | .unlocking _ call result => [(call, result)]
  | .between | .opening _ _ | .writing _ _ _ => []

def JsonlPc.isWriting : JsonlPc F → Bool
  | .writing _ _ _ => true
  | .between | .opening _ _ | .unlocking _ _ _ => false

/-- The calls of a thread, whether they are done or not. -/
def JsonlThread.calls (thread : JsonlThread F) : List (SinkCall F) :=
  thread.returned.map Prod.fst ++ thread.pc.call.toList ++ thread.todo.map Prod.snd

def successes (results : List (SinkCall F × Except Error Unit)) : List (SinkCall F) :=
  (results.filter fun entry => entry.2.isOk).map Prod.fst

/-- The calls whose records are complete. -/
def JsonlThread.recorded (thread : JsonlThread F) : List (SinkCall F) :=
  successes (thread.returned ++ thread.pc.result)

theorem successes_append (results later : List (SinkCall F × Except Error Unit)) :
    successes (results ++ later) = successes results ++ successes later := by
  simp only [successes, List.filter_append, List.map_append]

end Threads

variable {Thread F : Type} [DecidableEq Thread] [F64 F] (T : FloatText F)

namespace JsonlWriters

/-- Every call goes through the sink's mutex, and holds it between its first and its last step. -/
structure OneHolder (sink : JsonlHandle) (s : JsonlWriters Thread F) : Prop where
  todo : ∀ t, ∀ entry ∈ (s.threads t).todo, entry.1 = sink
  current : ∀ t handle, (s.threads t).pc.handle = some handle →
    handle = sink ∧ s.holder sink.jsonlWrite = some t
  held : ∀ t, s.holder sink.jsonlWrite = some t → (s.threads t).pc.handle = some sink

section Holder

variable {Thread F : Type} {sink : JsonlHandle} {s s' : JsonlWriters Thread F}

theorem OneHolder.append (h : OneHolder sink s) (handle : JsonlHandle) (text : List UInt8) :
    OneHolder sink (s.append handle text) :=
  ⟨h.todo, h.current, h.held⟩

/-- Beside the holder of the mutex no thread is inside a call. -/
theorem OneHolder.alone (h : OneHolder sink s) {t u : Thread} {handle : JsonlHandle}
    (ht : (s.threads t).pc.handle = some handle) (hut : u ≠ t) : (s.threads u).pc = .between := by
  by_contra hne
  obtain ⟨other, hother⟩ : ∃ other, (s.threads u).pc.handle = some other := by
    cases hpc : (s.threads u).pc with
    | between => exact absurd hpc hne
    | opening other => exact ⟨other, rfl⟩
    | writing other => exact ⟨other, rfl⟩
    | unlocking other => exact ⟨other, rfl⟩
  have hholder := (h.current u other hother).2
  rw [(h.current t handle ht).2, Option.some.injEq] at hholder
  exact hut hholder.symm

variable [DecidableEq Thread]

theorem OneHolder.setThread (h : OneHolder sink s) {t : Thread} {thread : JsonlThread F}
    (hhandle : thread.pc.handle = (s.threads t).pc.handle)
    (htodo : thread.todo = (s.threads t).todo) : OneHolder sink (s.setThread t thread) where
  todo u entry hentry := by
    by_cases hu : u = t
    · subst hu
      rw [setThread_self, htodo] at hentry
      exact h.todo u entry hentry
    · rw [setThread_ne s t thread hu] at hentry
      exact h.todo u entry hentry
  current u handle hu := by
    by_cases hut : u = t
    · subst hut
      rw [setThread_self, hhandle] at hu
      exact h.current u handle hu
    · rw [setThread_ne s t thread hut] at hu
      exact h.current u handle hu
  held u hu := by
    have hold := h.held u hu
    by_cases hut : u = t
    · subst hut
      rwa [setThread_self, hhandle]
    · rwa [setThread_ne s t thread hut]

theorem OneHolder.stepOf [F64 F] {T : FloatText F} (h : OneHolder sink s) {t : Thread}
    (hstep : s.StepOf T t s') : OneHolder sink s' := by
  cases hstep with
  | opens handle call hpc =>
    exact h.setThread (by rw [hpc]; rfl) rfl
  | cannotOpen handle call e hpc =>
    exact h.setThread (by rw [hpc]; rfl) rfl
  | writes handle call piece pieces rest text hpc htext =>
    exact (h.append handle text).setThread (by rw [append_threads, hpc]; rfl) rfl
  | ends handle call hpc =>
    exact (h.append handle [newline]).setThread (by rw [append_threads, hpc]; rfl) rfl
  | locks handle call todo hpc htodo hfree =>
    obtain rfl : handle = sink := h.todo t (handle, call) (by rw [htodo]; exact List.mem_cons_self)
    have hidle : ∀ u other, (s.threads u).pc.handle ≠ some other := by
      intro u other hu
      have hholder := (h.current u other hu).2
      rw [hfree] at hholder
      cases hholder
    refine ⟨fun u entry hentry => ?_, fun u other hu => ?_, fun u hu => ?_⟩
    · by_cases hut : u = t
      · subst hut
        rw [setThread_self] at hentry
        exact h.todo u entry (by rw [htodo]; exact List.mem_cons_of_mem _ hentry)
      · rw [setThread_ne _ t _ hut] at hentry
        exact h.todo u entry hentry
    · by_cases hut : u = t
      · subst hut
        rw [setThread_self] at hu
        cases hu
        exact ⟨rfl, by simp⟩
      · rw [setThread_ne _ t _ hut] at hu
        exact absurd hu (hidle u other)
    · rw [setThread_holder, setHolder_self] at hu
      cases hu
      rw [setThread_self]
      rfl
  | unlocks handle call result hpc =>
    obtain ⟨rfl, hholder⟩ := h.current t handle (by rw [hpc]; rfl)
    refine ⟨fun u entry hentry => ?_, fun u other hu => ?_, fun u hu => ?_⟩
    · by_cases hut : u = t
      · subst hut
        rw [setThread_self] at hentry
        exact h.todo u entry hentry
      · rw [setThread_ne _ t _ hut] at hentry
        exact h.todo u entry hentry
    · by_cases hut : u = t
      · subst hut
        rw [setThread_self] at hu
        cases hu
      · rw [setThread_ne _ t _ hut, setHolder_threads] at hu
        rw [h.alone (by rw [hpc]; rfl) hut] at hu
        cases hu
    · rw [setThread_holder, setHolder_self] at hu
      cases hu

end Holder

def recordLines (log : List (Thread × SinkCall F)) : List UInt8 :=
  lines newline (log.map fun entry => bytes (entry.2.pieces T))

omit [DecidableEq Thread] in
theorem recordLines_append (log later : List (Thread × SinkCall F)) :
    recordLines T (log ++ later) = recordLines T log ++ recordLines T later := by
  rw [recordLines, List.map_append, lines_append]
  rfl

/-- The file is the records of `log`, each with its newline, and then `part`, which is nothing or
the beginning of the record that a thread is writing. -/
structure Recorded (sink : JsonlHandle) (log : List (Thread × SinkCall F)) (part : List UInt8)
    (s : JsonlWriters Thread F) : Prop where
  file : s.files sink.path = recordLines T log ++ part
  writing : ∀ t handle call rest, (s.threads t).pc = .writing handle call rest →
    part ++ rest.flatten = bytes (call.pieces T)
  idle : (∀ t, (s.threads t).pc.isWriting = false) → part = []
  threads : ∀ t, (KeyedFold.ofKey Prod.fst t log).map Prod.snd = (s.threads t).recorded

section Record

variable {T} {sink : JsonlHandle} {s s' : JsonlWriters Thread F}
  {log : List (Thread × SinkCall F)} {part : List UInt8}

/-- A step between calls, or before or behind the writes of one. -/
theorem Recorded.setThread (h : Recorded T sink log part s) {t : Thread} {thread : JsonlThread F}
    (hbefore : (s.threads t).pc.isWriting = false) (hwriting : thread.pc.isWriting = false)
    (hrecorded : thread.recorded = (s.threads t).recorded) :
    Recorded T sink log part (s.setThread t thread) where
  file := h.file
  writing u handle call rest hu := by
    by_cases hut : u = t
    · subst hut
      rw [setThread_self] at hu
      rw [hu] at hwriting
      cases hwriting
    · rw [setThread_ne s t thread hut] at hu
      exact h.writing u handle call rest hu
  idle hidle := by
    refine h.idle fun u => ?_
    by_cases hut : u = t
    · rw [hut]
      exact hbefore
    · rw [← setThread_ne s t thread hut]
      exact hidle u
  threads u := by
    by_cases hut : u = t
    · subst hut
      rw [setThread_self, hrecorded]
      exact h.threads u
    · rw [setThread_ne s t thread hut]
      exact h.threads u

theorem Recorded.setHolder (h : Recorded T sink log part s) (handle : JsonlHandle)
    (holder : Option Thread) : Recorded T sink log part (s.setHolder handle holder) :=
  ⟨h.file, h.writing, h.idle, h.threads⟩

theorem Recorded.holder (h : Recorded T sink log part s) {t : Thread}
    (halone : ∀ u, u ≠ t → (s.threads u).pc = .between) {s' : JsonlWriters Thread F}
    (hthreads : s'.threads = s.threads) {thread : JsonlThread F}
    {later : List (Thread × SinkCall F)} {part' : List UInt8}
    (hfile : s'.files sink.path = recordLines T (log ++ later) ++ part')
    (hlater : ∀ entry ∈ later, entry.1 = t)
    (hrecorded : thread.recorded = (s.threads t).recorded ++ later.map Prod.snd)
    (hwriting : ∀ handle call rest, thread.pc = .writing handle call rest →
      part' ++ rest.flatten = bytes (call.pieces T))
    (hidle : thread.pc.isWriting = false → part' = []) :
    Recorded T sink (log ++ later) part' (s'.setThread t thread) where
  file := hfile
  writing u handle call rest hu := by
    by_cases hut : u = t
    · subst hut
      rw [setThread_self] at hu
      exact hwriting handle call rest hu
    · rw [setThread_ne _ t _ hut, hthreads, halone u hut] at hu
      cases hu
  idle hall := by
    have ht := hall t
    rw [setThread_self] at ht
    exact hidle ht
  threads u := by
    rw [KeyedFold.ofKey_append, List.map_append, h.threads u]
    by_cases hut : u = t
    · subst hut
      have hown : KeyedFold.ofKey Prod.fst u later = later :=
        List.filter_eq_self.mpr fun entry hentry => by simpa using hlater entry hentry
      rw [hown, setThread_self, hrecorded]
    · have hnone : KeyedFold.ofKey Prod.fst u later = [] := by
        refine List.filter_eq_nil_iff.mpr fun entry hentry => ?_
        rw [hlater entry hentry]
        simpa using fun he => hut he.symm
      rw [hnone, List.map_nil, List.append_nil, setThread_ne _ t _ hut, hthreads]

theorem Recorded.stepOf (h : Recorded T sink log part s) (hold : OneHolder sink s) {t : Thread}
    (hstep : s.StepOf T t s') : ∃ log' part', Recorded T sink log' part' s' := by
  cases hstep with
  | locks handle call todo hpc htodo hfree =>
    refine ⟨log, part, (h.setHolder handle (some t)).setThread (by rw [setHolder_threads, hpc]; rfl)
      rfl ?_⟩
    simp only [JsonlThread.recorded, setHolder_threads, hpc]
    rfl
  | cannotOpen handle call e hpc =>
    refine ⟨log, part, h.setThread (by rw [hpc]; rfl) rfl ?_⟩
    simp only [JsonlThread.recorded, JsonlPc.result, hpc, successes_append]
    rfl
  | unlocks handle call result hpc =>
    refine ⟨log, part, (h.setHolder handle none).setThread (by rw [setHolder_threads, hpc]; rfl)
      rfl ?_⟩
    simp only [JsonlThread.recorded, JsonlPc.result, setHolder_threads, hpc, List.append_nil]
  | opens handle call hpc =>
    have halone : ∀ u, u ≠ t → (s.threads u).pc = .between := fun u hut =>
      hold.alone (by rw [hpc]; rfl) hut
    have hpart : part = [] := by
      refine h.idle fun u => ?_
      by_cases hut : u = t
      · rw [hut, hpc]
        rfl
      · rw [halone u hut]
        rfl
    subst hpart
    have hfile := h.file
    rw [← List.append_nil log] at hfile
    refine ⟨log ++ [], [], h.holder halone rfl hfile (fun entry hentry => by cases hentry) ?_ ?_
      (fun _ => rfl)⟩
    · simp only [JsonlThread.recorded, JsonlPc.result, hpc, List.map_nil, List.append_nil]
    · rintro handle call rest he
      cases he
      rfl
  | writes handle call piece pieces rest text hpc htext =>
    obtain ⟨rfl, -⟩ := hold.current t handle (by rw [hpc]; rfl)
    have halone : ∀ u, u ≠ t → (s.threads u).pc = .between := fun u hut =>
      hold.alone (by rw [hpc]; rfl) hut
    have hfile : (s.append handle text).files handle.path =
        recordLines T (log ++ []) ++ (part ++ text) := by
      rw [append_self, h.file, List.append_nil, List.append_assoc]
    refine ⟨log ++ [], part ++ text, Recorded.holder h halone (by rfl) hfile
      (fun entry hentry => ?_) ?_ ?_ (fun hwriting => ?_)⟩
    · cases hentry
    · simp only [JsonlThread.recorded, JsonlPc.result, append_threads, hpc, List.map_nil,
        List.append_nil]
    · rintro handle call rest he
      cases he
      rw [List.append_assoc, htext, ← h.writing t handle call _ hpc, List.flatten_cons]
    · simp [JsonlPc.isWriting] at hwriting
  | ends handle call hpc =>
    obtain ⟨rfl, -⟩ := hold.current t handle (by rw [hpc]; rfl)
    have halone : ∀ u, u ≠ t → (s.threads u).pc = .between := fun u hut =>
      hold.alone (by rw [hpc]; rfl) hut
    have hrecord : part = bytes (call.pieces T) := by
      rw [← h.writing t handle call [] hpc, List.flatten_nil, List.append_nil]
    have hrecords : recordLines T [(t, call)] = bytes (call.pieces T) ++ [newline] :=
      lines_singleton newline _
    have hfile : (s.append handle [newline]).files handle.path =
        recordLines T (log ++ [(t, call)]) ++ [] := by
      rw [append_self, h.file, recordLines_append, hrecords, hrecord, List.append_nil,
        List.append_assoc]
    refine ⟨log ++ [(t, call)], [], Recorded.holder h halone (by rfl) hfile ?_ ?_ ?_ (fun _ => rfl)⟩
    · intro entry hentry
      rw [List.mem_singleton.mp hentry]
    · simp only [JsonlThread.recorded, JsonlPc.result, append_threads, hpc, List.append_nil,
        successes_append]
      rfl
    · rintro handle call rest he
      cases he

end Record

section Run

variable {T} {sink : JsonlHandle} {s s' : JsonlWriters Thread F}

/-- A thread makes the calls it has been given, in their order. -/
theorem calls_stepOf {t : Thread} (hstep : s.StepOf T t s') (u : Thread) :
    (s'.threads u).calls = (s.threads u).calls := by
  by_cases hut : u = t
  · subst hut
    cases hstep with
    | locks handle call todo hpc htodo hfree =>
      simp [JsonlThread.calls, hpc, htodo, JsonlPc.call]
    | opens handle call hpc => simp [JsonlThread.calls, setPc, hpc, JsonlPc.call]
    | cannotOpen handle call e hpc => simp [JsonlThread.calls, setPc, hpc, JsonlPc.call]
    | writes handle call piece pieces rest text hpc htext =>
      simp [JsonlThread.calls, setPc, hpc, JsonlPc.call]
    | ends handle call hpc => simp [JsonlThread.calls, setPc, hpc, JsonlPc.call]
    | unlocks handle call result hpc => simp [JsonlThread.calls, hpc, JsonlPc.call]
  · cases hstep <;> simp [setPc, setThread_ne _ t _ hut]

/-- The invariant of a run: one thread at a time is inside a call, and the file is whole records
and its part. -/
structure Whole (T : FloatText F) (sink : JsonlHandle) (start s : JsonlWriters Thread F) : Prop where
  oneHolder : OneHolder sink s
  recorded : ∃ log part, Recorded T sink log part s
  calls : ∀ t, (s.threads t).calls = (start.threads t).calls

theorem whole_start {files : String → List UInt8}
    {programs : Thread → List (JsonlHandle × SinkCall F)}
    (hclones : ∀ t, ∀ entry ∈ programs t, sink.Clones entry.1) (hfile : files sink.path = []) :
    Whole T sink (start files programs) (start files programs) where
  oneHolder :=
    { todo := fun t entry hentry => (hclones t entry hentry).eq
      current := fun t handle hpc => by cases hpc
      held := fun t hholder => by cases hholder }
  recorded := by
    refine ⟨[], [], hfile, fun t handle call rest hpc => ?_, fun _ => rfl, fun _ => rfl⟩
    cases hpc
  calls _ := rfl

theorem Whole.run {start : JsonlWriters Thread F} (h : Whole T sink start s)
    (hrun : Relation.ReflTransGen (Steps T) s s') : Whole T sink start s' := by
  induction hrun with
  | refl => exact h
  | tail hrun hstep ih =>
    obtain ⟨t, outcome, hstep⟩ := hstep
    have hof := stepOf_of_step T hstep
    obtain ⟨log, part, hrecorded⟩ := ih.recorded
    exact ⟨ih.oneHolder.stepOf hof, hrecorded.stepOf ih.oneHolder hof,
      fun u => (calls_stepOf hof u).trans (ih.calls u)⟩

end Run

/-- The file is the records of `log`, one to a line, and a part of the record of the thread that
holds the mutex. -/
structure CompleteRecords (sink : JsonlHandle) (log : List (Thread × SinkCall F))
    (s : JsonlWriters Thread F) : Prop where
  file : ∃ part, s.files sink.path = recordLines T log ++ part ∧
    (part ≠ [] → ∃ t call rest, s.holder sink.jsonlWrite = some t ∧
      (s.threads t).pc = .writing sink call rest ∧ part ++ rest.flatten = bytes (call.pieces T))
  threads : ∀ t, (KeyedFold.ofKey Prod.fst t log).map Prod.snd = (s.threads t).recorded

theorem call_roomyDisk (sink : JsonlSink) (call : SinkCall F) (file : List UInt8) :
    sink.call T call roomyDisk file = (.ok (), file ++ bytes (call.pieces T) ++ [newline]) := by
  have hok : ∀ k, roomyDisk.write k = .ok := fun _ => rfl
  cases call with
  | interval metrics => exact sink.appendJsonl_ok _ _ rfl rfl hok file
  | window metrics => exact sink.appendJsonl_ok _ _ rfl rfl hok file
  | event event => cases event <;> exact sink.appendJsonl_ok _ _ rfl rfl hok file

omit [DecidableEq Thread] in
/-- One thread that makes the calls of `log` in turn comes to the same file. -/
theorem run_roomyDisk (sink : JsonlSink) (log : List (Thread × SinkCall F)) (file : List UInt8) :
    (sink.run T (log.map fun entry => (entry.2, roomyDisk)) file).2 =
      file ++ recordLines T log := by
  induction log generalizing file with
  | nil => exact (List.append_nil file).symm
  | cons entry log ih =>
    have hrecords : recordLines T (entry :: log) =
        bytes (entry.2.pieces T) ++ [newline] ++ recordLines T log := rfl
    simp only [List.map_cons, JsonlSink.run, call_roomyDisk]
    rw [ih, hrecords]
    simp only [List.append_assoc]

/-- When all calls have returned: each line is a record, each record of a thread that has been
written is there once, in the order of its calls, and without a failing `open` that is every one.
The file is as if the calls had been made in turn. -/
structure AllReturned (sink : JsonlHandle) (programs : Thread → List (JsonlHandle × SinkCall F))
    (log : List (Thread × SinkCall F)) (s : JsonlWriters Thread F) : Prop where
  lines : (s.files sink.path).splitOn newline =
    log.map (fun entry => bytes (entry.2.pieces T)) ++ [[]]
  sequential : s.files sink.path =
    ((JsonlSink.mk sink.path).run T (log.map fun entry => (entry.2, roomyDisk)) []).2
  returned : ∀ t, (s.threads t).returned.map Prod.fst = (programs t).map Prod.snd
  threads : ∀ t, (KeyedFold.ofKey Prod.fst t log).map Prod.snd = successes (s.threads t).returned
  all : ∀ t, (∀ entry ∈ (s.threads t).returned, entry.2.isOk = true) →
    (KeyedFold.ofKey Prod.fst t log).map Prod.snd = (programs t).map Prod.snd

section Safe

variable {T} {sink : JsonlHandle} {start s : JsonlWriters Thread F}
  {log : List (Thread × SinkCall F)} {part : List UInt8}

theorem Recorded.complete (h : Recorded T sink log part s) (hold : OneHolder sink s) :
    CompleteRecords T sink log s := by
  refine ⟨⟨part, h.file, fun hpart => ?_⟩, h.threads⟩
  by_contra hnone
  refine hpart (h.idle fun t => ?_)
  cases hpc : (s.threads t).pc with
  | between => rfl
  | opening handle call => rfl
  | unlocking handle call result => rfl
  | writing handle call rest =>
    obtain ⟨rfl, hholder⟩ := hold.current t handle (by rw [hpc]; rfl)
    exact absurd ⟨t, call, rest, hholder, hpc, h.writing t handle call rest hpc⟩ hnone

omit [F64 F] in
theorem successes_of_isOk {results : List (SinkCall F × Except Error Unit)}
    (h : ∀ entry ∈ results, entry.2.isOk = true) : successes results = results.map Prod.fst := by
  rw [successes, List.filter_eq_self.mpr h]

theorem Recorded.allReturned {files : String → List UInt8}
    {programs : Thread → List (JsonlHandle × SinkCall F)} (h : Recorded T sink log part s)
    (hcalls : ∀ t, (s.threads t).calls =
      ((JsonlWriters.start files programs).threads t).calls)
    (hdone : ∀ t, (s.threads t).todo = [] ∧ (s.threads t).pc = .between) :
    AllReturned T sink programs log s := by
  have hpart : part = [] := by
    refine h.idle fun t => ?_
    rw [(hdone t).2]
    rfl
  have hreturned : ∀ t, (s.threads t).returned.map Prod.fst = (programs t).map Prod.snd := by
    intro t
    have he := hcalls t
    simp only [JsonlThread.calls, (hdone t).1, (hdone t).2] at he
    simpa [JsonlPc.call, JsonlWriters.start] using he
  have hthreads : ∀ t, (KeyedFold.ofKey Prod.fst t log).map Prod.snd =
      successes (s.threads t).returned := by
    intro t
    rw [h.threads t, JsonlThread.recorded, (hdone t).2, JsonlPc.result, List.append_nil]
  have hfile : s.files sink.path = recordLines T log := by
    rw [h.file, hpart, List.append_nil]
  refine ⟨?_, ?_, hreturned, hthreads, fun t hok => ?_⟩
  · rw [hfile]
    refine splitOn_lines fun text htext => ?_
    obtain ⟨entry, -, rfl⟩ := List.mem_map.mp htext
    exact newline_not_mem_bytes (entry.2.plainPieces T)
  · rw [hfile, run_roomyDisk, List.nil_append]
  · rw [hthreads t, successes_of_isOk hok, hreturned t]

end Safe

end JsonlWriters

/-- The clones of a JSONL sink, in as many threads as there are, keep the records whole. -/
theorem jsonl_clones_whole_records (T : FloatText F) (sink : JsonlHandle)
    (files : String → List UInt8) (programs : Thread → List (JsonlHandle × SinkCall F))
    (hclones : ∀ t, ∀ entry ∈ programs t, sink.Clones entry.1) (s : JsonlWriters Thread F)
    (hrun : Relation.ReflTransGen (JsonlWriters.Steps T)
      (.start (Function.update files sink.path []) programs) s) :
    ∃ log, JsonlWriters.CompleteRecords T sink log s ∧
      ((∀ t, (s.threads t).todo = [] ∧ (s.threads t).pc = .between) →
        JsonlWriters.AllReturned T sink programs log s) := by
  have hwhole := (JsonlWriters.whole_start (T := T) hclones (Function.update_self ..)).run hrun
  obtain ⟨log, part, hrecorded⟩ := hwhole.recorded
  exact ⟨log, hrecorded.complete hwhole.oneHolder, hrecorded.allReturned hwhole.calls⟩

/-- Two threads, one of them with a clone. -/
def clonedPrograms (second : Bool) : List (JsonlHandle × SinkCall ExactF64) :=
  if second then [(⟨"m.jsonl", 7⟩, .interval .default)]
  else [(JsonlHandle.clone ⟨"m.jsonl", 7⟩, .interval .default)]

theorem jsonl_clones_whole_records_begun : ∃ s : JsonlWriters Bool ExactF64,
    s.holder 7 = some false ∧ s.files "m.jsonl" = [123] ∧
    ∃ log, JsonlWriters.CompleteRecords zeroText ⟨"m.jsonl", 7⟩ log s ∧
      ((∀ t, (s.threads t).todo = [] ∧ (s.threads t).pc = .between) →
        JsonlWriters.AllReturned zeroText ⟨"m.jsonl", 7⟩ clonedPrograms log s) := by
  have hclones : ∀ t, ∀ entry ∈ clonedPrograms t, JsonlHandle.Clones ⟨"m.jsonl", 7⟩ entry.1 := by
    intro t entry hentry
    cases t with
    | false =>
      rw [List.mem_singleton.mp hentry]
      exact .clone _ .self
    | true =>
      rw [List.mem_singleton.mp hentry]
      exact .self
  have hlocks : JsonlWriters.Steps zeroText
      (.start (Function.update (fun _ => [0]) "m.jsonl" []) clonedPrograms) _ := ⟨false, .ok, rfl⟩
  have hlocked := Relation.ReflTransGen.single hlocks
  have hopened := hlocked.tail ⟨false, .ok, rfl⟩
  have hbegun := hopened.tail ⟨false, .wrote 1, rfl⟩
  exact ⟨_, rfl, rfl, jsonl_clones_whole_records zeroText ⟨"m.jsonl", 7⟩ (fun _ => [0])
    clonedPrograms hclones _ hbegun⟩

end Iperf3Rs
