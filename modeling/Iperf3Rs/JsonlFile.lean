import Iperf3Rs.ExactF64
import Iperf3Rs.JsonlRecords
import Mathlib.Data.List.Induction

/-! When the metrics file holds one record for each call that succeeded: exactly when no write
fails behind the first bytes of its record. -/

namespace Iperf3Rs

open JsonText LineText

theorem toWriter_cases (write : ℕ → WriteAll) (pieces : List (List UInt8)) (file : List UInt8) :
    ((∀ m < pieces.length, write m = .ok) ∧
      toWriter write pieces file = (true, file ++ pieces.flatten)) ∨
    ∃ n < pieces.length, ∃ count, (∀ m < n, write m = .ok) ∧ write n = .fails count ∧
      toWriter write pieces file =
        (false, file ++ ((pieces.take n).flatten ++ (pieces.getD n []).take count)) := by
  induction pieces generalizing write file with
  | nil => exact .inl ⟨fun m hm => absurd hm (Nat.not_lt_zero m), by simp [toWriter]⟩
  | cons piece pieces ih =>
    cases hw : write 0 with
    | fails count =>
      refine .inr ⟨0, by simp, count, fun m hm => absurd hm (Nat.not_lt_zero m), hw, ?_⟩
      simp [toWriter, hw]
    | ok =>
      rcases ih (fun k => write (k + 1)) (file ++ piece) with ⟨hall, he⟩ | ⟨n, hn, count, hok, hf, he⟩
      · refine .inl ⟨fun m hm => ?_, by simp [toWriter, hw, he]⟩
        cases m with
        | zero => exact hw
        | succ m => exact hall m (by simpa using hm)
      · refine .inr ⟨n + 1, by simpa using hn, count, fun m hm => ?_, hf, by simp [toWriter, hw, he]⟩
        cases m with
        | zero => exact hw
        | succ m => exact hok m (by omega)

/-- A write fails although some byte of the record has reached the file. -/
def AppendEnv.Torn (env : AppendEnv) (pieces : Pieces) : Prop :=
  env.lockPoisoned = false ∧ env.opens = true ∧ ∃ n ≤ pieces.length, ∃ count,
    (∀ m < n, env.write m = .ok) ∧ env.write n = .fails count ∧ (0 < n ∨ 0 < count)

/-- The ways a call of `append_jsonl` can end. -/
inductive Appends (env : AppendEnv) (pieces : Pieces) (file : List UInt8) :
    Except Error Unit × List UInt8 → Prop
  | recorded (htorn : ¬ env.Torn pieces) :
      Appends env pieces file (.ok (), file ++ bytes pieces ++ [newline])
  | untouched (e : Error) (htorn : ¬ env.Torn pieces) :
      Appends env pieces file (.error e, file)
  | torn (e : Error) (part : List UInt8) (htorn : env.Torn pieces) (hpart : part ≠ []) :
      Appends env pieces file (.error e, file ++ part)

theorem not_torn_of_fails {env : AppendEnv} {pieces : Pieces} (h : env.write 0 = .fails 0) :
    ¬ env.Torn pieces := by
  rintro ⟨-, -, n, -, count, hok, hf, hpos⟩
  cases n with
  | zero =>
    rw [h, WriteAll.fails.injEq] at hf
    omega
  | succ n =>
    have h0 := hok 0 (Nat.succ_pos n)
    rw [h] at h0
    cases h0

theorem JsonlSink.appendJsonl_appends (sink : JsonlSink) (event : String)
    (fields : List (String × Pieces))
    (env : AppendEnv) (file : List UInt8) :
    Appends env (jsonlEvent event fields) file (sink.appendJsonl event fields env file) := by
  cases hl : env.lockPoisoned with
  | true =>
    simp only [JsonlSink.appendJsonl, hl, if_true]
    exact .untouched _ fun h => by simp [AppendEnv.Torn, hl] at h
  | false =>
    cases ho : env.opens with
    | false =>
      simp only [JsonlSink.appendJsonl, hl, ho]
      exact .untouched _ fun h => by simp [AppendEnv.Torn, ho] at h
    | true =>
      simp only [JsonlSink.appendJsonl, hl, ho, Bool.not_true, Bool.false_eq_true, if_false]
      -- the first piece is the opening brace, so the bytes of any piece behind it are torn off
      obtain ⟨rest, hbrace⟩ : ∃ rest, (jsonlEvent event fields).map Text.bytes = [123] :: rest :=
        ⟨_, rfl⟩
      have hlen : (jsonlEvent event fields).length = rest.length + 1 := by
        rw [← List.length_map Text.bytes, hbrace, List.length_cons]
      have hbytes : bytes (jsonlEvent event fields) =
          ((jsonlEvent event fields).map Text.bytes).flatten := rfl
      rcases toWriter_cases env.write ((jsonlEvent event fields).map Text.bytes) file with
        ⟨hall, he⟩ | ⟨n, hn, count, hok, hf, he⟩
      · rw [he]
        cases hw : env.write ((jsonlEvent event fields).map Text.bytes).length with
        | ok =>
          refine .recorded ?_
          rintro ⟨-, -, n, hn, count, -, hf, -⟩
          rw [← List.length_map Text.bytes] at hn
          rcases Nat.lt_or_eq_of_le hn with hlt | rfl
          · rw [hall n hlt] at hf
            cases hf
          · rw [hw] at hf
            cases hf
        | fails count =>
          rw [List.length_map] at hall hw
          have htorn : env.Torn (jsonlEvent event fields) :=
            ⟨hl, ho, _, Nat.le_refl _, count, hall, hw, .inl (by omega)⟩
          simp only [List.append_assoc]
          exact .torn _ _ htorn (by simp [hbrace])
      · rw [he]
        rw [List.length_map] at hn
        by_cases hzero : n = 0 ∧ count = 0
        · obtain ⟨rfl, rfl⟩ := hzero
          simp only [List.take_zero, List.flatten_nil, List.append_nil]
          exact .untouched _ (not_torn_of_fails hf)
        · have htorn : env.Torn (jsonlEvent event fields) :=
            ⟨hl, ho, n, by omega, count, hok, hf, by omega⟩
          refine .torn _ _ htorn ?_
          rw [hbrace]
          cases n with
          | zero =>
            obtain ⟨k, rfl⟩ : ∃ k, count = k + 1 := ⟨count - 1, by omega⟩
            simp
          | succ n => simp

/-- A call goes through if none of its writes fails. -/
theorem JsonlSink.appendJsonl_ok (sink : JsonlSink) (event : String)
    (fields : List (String × Pieces)) {env : AppendEnv} (hl : env.lockPoisoned = false)
    (ho : env.opens = true) (hw : ∀ k, env.write k = .ok) (file : List UInt8) :
    sink.appendJsonl event fields env file =
      (.ok (), file ++ bytes (jsonlEvent event fields) ++ [newline]) := by
  rcases toWriter_cases env.write ((jsonlEvent event fields).map Text.bytes) file with
    ⟨-, he⟩ | ⟨n, -, count, -, hf, -⟩
  · simp only [JsonlSink.appendJsonl, hl, ho, he, hw, Bool.not_true, Bool.false_eq_true, if_false]
    rfl
  · rw [hw] at hf
    cases hf

section Run

variable {F : Type} [F64 F] (T : FloatText F) (sink : JsonlSink)

theorem JsonlSink.call_appends (call : SinkCall F) (env : AppendEnv) (file : List UInt8) :
    Appends env (call.pieces T) file (sink.call T call env file) := by
  cases call with
  | interval metrics => exact sink.appendJsonl_appends _ _ env file
  | window metrics => exact sink.appendJsonl_appends _ _ env file
  | event event => cases event <;> exact sink.appendJsonl_appends _ _ env file

/-- The records of the calls that returned `Ok`. -/
def succeeded : List (SinkCall F × AppendEnv) → List (Except Error Unit) → List (List UInt8)
  | (call, _) :: calls, .ok () :: results => bytes (call.pieces T) :: succeeded calls results
  | _ :: calls, .error _ :: results => succeeded calls results
  | _, _ => []

/-- The file is the records of the successful calls, one to a line. -/
structure OneRecordPerLine (calls : List (SinkCall F × AppendEnv)) : Prop where
  file_eq : (sink.run T calls []).2 = lines newline (succeeded T calls (sink.run T calls []).1)
  lines_eq : (sink.run T calls []).2.splitOn newline =
    succeeded T calls (sink.run T calls []).1 ++ [[]]

theorem JsonlSink.run_append (calls later : List (SinkCall F × AppendEnv)) (file : List UInt8) :
    sink.run T (calls ++ later) file =
      ((sink.run T calls file).1 ++ (sink.run T later (sink.run T calls file).2).1,
        (sink.run T later (sink.run T calls file).2).2) := by
  induction calls generalizing file with
  | nil => rfl
  | cons call calls ih =>
    obtain ⟨call, env⟩ := call
    simp only [List.cons_append, JsonlSink.run, ih]

theorem JsonlSink.length_run (calls : List (SinkCall F × AppendEnv)) (file : List UInt8) :
    (sink.run T calls file).1.length = calls.length := by
  induction calls generalizing file with
  | nil => rfl
  | cons call calls ih => simp [JsonlSink.run, ih]

theorem succeeded_append {calls : List (SinkCall F × AppendEnv)}
    {results : List (Except Error Unit)} (h : results.length = calls.length)
    (later : List (SinkCall F × AppendEnv)) (results' : List (Except Error Unit)) :
    succeeded T (calls ++ later) (results ++ results') =
      succeeded T calls results ++ succeeded T later results' := by
  induction calls generalizing results with
  | nil =>
    rw [List.length_eq_zero_iff.mp h]
    cases later <;> cases results' <;> rfl
  | cons call calls ih =>
    cases results with
    | nil => simp at h
    | cons result results =>
      have hrest := ih (by simpa using h)
      cases result with
      | ok => simp [succeeded, hrest]
      | error => simp [succeeded, hrest]

theorem newline_not_mem_succeeded (calls : List (SinkCall F × AppendEnv))
    (results : List (Except Error Unit)) :
    ∀ record ∈ succeeded T calls results, newline ∉ record := by
  induction calls generalizing results with
  | nil => exact fun _ h => by cases h
  | cons call calls ih =>
    cases results with
    | nil => exact fun _ h => by cases h
    | cons result results =>
      cases result with
      | error => exact ih results
      | ok =>
        intro record hrecord
        rcases List.mem_cons.mp hrecord with rfl | hrecord
        · exact newline_not_mem_bytes (call.1.plainPieces T)
        · exact ih results record hrecord

theorem oneRecordPerLine_of_untorn {calls : List (SinkCall F × AppendEnv)}
    (h : ∀ c ∈ calls, ¬ c.2.Torn (c.1.pieces T)) : OneRecordPerLine T sink calls := by
  have hfile : (sink.run T calls []).2 =
      lines newline (succeeded T calls (sink.run T calls []).1) := by
    induction calls using List.reverseRecOn with
    | nil => rfl
    | append_singleton calls c ih =>
      obtain ⟨call, env⟩ := c
      have hbefore := ih fun c hc => h c (List.mem_append_left _ hc)
      have hc : ¬ env.Torn (call.pieces T) := h (call, env) (by simp)
      have hcall := sink.call_appends T call env (sink.run T calls []).2
      simp only [sink.run_append T calls, succeeded_append T (sink.length_run T calls []),
        lines_append, ← hbefore, JsonlSink.run]
      generalize sink.call T call env (sink.run T calls []).2 = outcome at hcall
      cases hcall with
      | recorded => simp [succeeded, lines_singleton]
      | untouched => simp [succeeded]
      | torn _ _ htorn => exact absurd htorn hc
  refine ⟨hfile, ?_⟩
  rw [hfile]
  exact splitOn_lines (newline_not_mem_succeeded T calls _)

/-- After every call the file is the records of the successful calls, and a call that returns an
error leaves the file as it was, exactly when no write fails once a byte of its record has
reached the file. -/
theorem jsonl_file_iff (calls : List (SinkCall F × AppendEnv)) :
    ((∀ before, before <+: calls → OneRecordPerLine T sink before) ∧
      ∀ before call env e, before ++ [(call, env)] <+: calls →
        (sink.call T call env (sink.run T before []).2).1 = .error e →
        (sink.call T call env (sink.run T before []).2).2 = (sink.run T before []).2) ↔
      ∀ c ∈ calls, ¬ c.2.Torn (c.1.pieces T) := by
  constructor
  · rintro ⟨-, hkeep⟩ ⟨call, env⟩ hc htorn
    obtain ⟨before, later, rfl⟩ := List.append_of_mem hc
    have hpre : before ++ [(call, env)] <+: before ++ (call, env) :: later :=
      ⟨later, by simp⟩
    have hkeep := fun e => hkeep before call env e hpre
    have hcall := sink.call_appends T call env (sink.run T before []).2
    generalize sink.call T call env (sink.run T before []).2 = outcome at hcall hkeep
    cases hcall with
    | recorded hno => exact hno htorn
    | untouched e hno => exact hno htorn
    | torn e part _ hpart => exact hpart (by simpa using hkeep e rfl)
  · refine fun h => ⟨fun before hbefore => ?_, fun before call env e hbefore he => ?_⟩
    · exact oneRecordPerLine_of_untorn T sink fun c hc => h c (hbefore.subset hc)
    · have hno : ¬ env.Torn (call.pieces T) := h (call, env) (hbefore.subset (by simp))
      have hcall := sink.call_appends T call env (sink.run T before []).2
      generalize sink.call T call env (sink.run T before []).2 = outcome at hcall he
      cases hcall with
      | recorded => cases he
      | untouched => rfl
      | torn _ _ htorn => exact absurd htorn hno

end Run

def zeroText : FloatText ExactF64 where
  toText value := if value = .finite 0 then "0.0" else "1.0"
  plain value := by split <;> decide

/-- The disk is full behind the opening brace. -/
def fullDisk : AppendEnv := ⟨false, true, fun k => if k = 0 then .ok else .fails 0⟩

def roomyDisk : AppendEnv := ⟨false, true, fun _ => .ok⟩

def tornCalls : List (SinkCall ExactF64 × AppendEnv) :=
  [(.interval .default, fullDisk), (.interval .default, roomyDisk)]

theorem jsonl_records_share_line :
    ((JsonlSink.mk "m.jsonl").run zeroText tornCalls []).1 =
        [.error ⟨.metricsFile, "failed to encode metrics JSON"⟩, .ok ()] ∧
      ((JsonlSink.mk "m.jsonl").run zeroText tornCalls []).2 =
        123 :: (bytes ((SinkCall.interval .default).pieces zeroText) ++ [newline]) ∧
      ¬ OneRecordPerLine zeroText (JsonlSink.mk "m.jsonl") tornCalls := by
  have hfirst : (JsonlSink.mk "m.jsonl").call zeroText (.interval .default) fullDisk [] =
      (.error ⟨.metricsFile, "failed to encode metrics JSON"⟩, [123]) := rfl
  have hsecond : (JsonlSink.mk "m.jsonl").call zeroText (.interval .default) roomyDisk [123] =
      (.ok (), 123 :: (bytes ((SinkCall.interval .default).pieces zeroText) ++ [newline])) := by
    have hw : ∀ k, roomyDisk.write k = .ok := fun _ => rfl
    exact (JsonlSink.mk "m.jsonl").appendJsonl_ok "interval" (Metrics.default.jsonFields zeroText)
      rfl rfl hw [123]
  have hrun : (JsonlSink.mk "m.jsonl").run zeroText tornCalls [] =
      ([.error ⟨.metricsFile, "failed to encode metrics JSON"⟩, .ok ()],
        123 :: (bytes ((SinkCall.interval .default).pieces zeroText) ++ [newline])) := by
    simp only [tornCalls, JsonlSink.run, hfirst, hsecond]
  refine ⟨by rw [hrun], by rw [hrun], fun h => ?_⟩
  have hlength := congrArg List.length h.file_eq
  rw [hrun] at hlength
  simp [tornCalls, succeeded, lines_singleton] at hlength

end Iperf3Rs
