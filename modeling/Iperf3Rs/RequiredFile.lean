import Iperf3Rs.BestEffort

/-! The file sink is required, whatever the Pushgateway does. The calls of `write_interval` and
the result of the run are a function of the samples and of the outcomes of the writes. -/

namespace Iperf3Rs

variable {F : Type} [F64 F]

namespace SinkPc

def unwritten : SinkPc F → List (Metrics F)
  | .writing metrics => [metrics]
  | _ => []

end SinkPc

/-- The samples received have been written in order, up to the one in hand; a failed worker has
stopped at the first write that failed. -/
structure WriteInv (cfg : ReporterConfig) (s : Reporter F) : Prop where
  conserved : s.sink.failed = false → s.written ++ s.sink.unwritten = s.raw.taken
  succeeded : s.sink.failed = false → ∀ k < s.written.length, cfg.fileWrite k = .ok ()
  failed : ∀ e, s.sink.result = some (.error e) → s.overflowed = false →
    s.written = s.raw.taken ∧ ∃ n, s.written.length = n + 1 ∧ cfg.fileWrite n = .error e ∧
      ∀ k < n, cfg.fileWrite k = .ok ()

theorem WriteInv.start (cfg : ReporterConfig) (samples : List (Metrics F)) :
    WriteInv cfg (.start cfg samples) :=
  ⟨fun _ => rfl, fun _ k hk => absurd hk (Nat.not_lt_zero k), fun _ hr => by cases hr⟩

theorem WriteInv.keep {cfg : ReporterConfig} {s s' : Reporter F} (h : WriteInv cfg s)
    (hw : s'.written = s.written) (ht : s'.raw.taken = s.raw.taken)
    (hu : s'.sink.unwritten = s.sink.unwritten) (hr : s'.sink.result = s.sink.result)
    (ho : s'.overflowed = s.overflowed) : WriteInv cfg s' := by
  have hf := SinkPc.failed_eq hr
  refine ⟨?_, ?_, ?_⟩
  · simpa only [hf, hw, ht, hu] using h.conserved
  · simpa only [hf, hw] using h.succeeded
  · simpa only [hr, hw, ht, ho] using h.failed

theorem WriteInv.sink {cfg : ReporterConfig} {s s' : Reporter F} (hfile : cfg.fileSink = true)
    (h : WriteInv cfg s) (hs : SinkStep cfg s s') : WriteInv cfg s' := by
  cases hs with
  | enqueue stage hst => exact h.keep rfl rfl rfl rfl rfl
  | wait _ hpc | disconnect hpc | forward _ hpc | join _ _ _ hpc | first _ _ _ _ hpc
  | «return» _ hpc | dropTx _ hpc | dropLatest _ hpc | joinWorker _ hpc =>
    exact h.keep rfl rfl (by rw [hpc]; rfl) (by rw [hpc]; rfl) rfl
  | overdue _ _ hpc => exact h.keep (by simp) (by simp) (by simp) (by simp) (by simp)
  | timeout _ hpc | split _ _ _ _ _ hpc =>
    exact h.keep (by simp) (by simp) (by rw [hpc]; rfl) (by rw [hpc]; rfl) (by simp)
  | finalFlush hpc =>
    have hc := h.conserved (by rw [hpc]; rfl)
    have hok := h.succeeded (by rw [hpc]; rfl)
    refine ⟨fun _ => ?_, fun _ => ?_, fun e hr => by cases hr⟩
    · simpa [hpc, SinkPc.unwritten] using hc
    · simpa using hok
  | receive metrics rest hpc hb =>
    have hc := h.conserved (by rw [hpc]; rfl)
    have hok := h.succeeded (by rw [hpc]; rfl)
    refine ⟨fun _ => ?_, fun _ => hok, fun e hr => by cases hr⟩
    simp only [hpc, SinkPc.unwritten, List.append_nil] at hc
    simp only [SinkPc.unwritten, Link.take, hc]
  | write metrics hpc hw =>
    have hc := h.conserved (by rw [hpc]; rfl)
    have hok := h.succeeded (by rw [hpc]; rfl)
    simp only [ReporterConfig.writeOutcome, hfile, if_true] at hw
    simp only [hfile, if_true]
    refine ⟨fun _ => ?_, fun _ k hk => ?_, fun e hr => by cases hr⟩
    · simpa [hpc, SinkPc.unwritten] using hc
    · rw [List.length_append, List.length_singleton] at hk
      rcases Nat.lt_succ_iff_lt_or_eq.mp hk with hlt | rfl
      · exact hok k hlt
      · exact hw
  | writeFailed metrics e hpc hw =>
    have hc := h.conserved (by rw [hpc]; rfl)
    have hok := h.succeeded (by rw [hpc]; rfl)
    simp only [ReporterConfig.writeOutcome, hfile, if_true] at hw
    simp only [hfile, if_true]
    refine ⟨(by cases ·), (by cases ·), fun e' hr ho => ⟨?_, s.written.length, ?_, ?_, hok⟩⟩
    · simpa [hpc, SinkPc.unwritten] using hc
    · simp
    · cases hr
      exact hw
  | splitFailed metrics interval now flushAt e | firstFailed metrics interval now e =>
    exact ⟨(by cases ·), (by cases ·), fun _ _ ho => by cases ho⟩

theorem Reporter.Reachable.writeInv {cfg : ReporterConfig} {samples : List (Metrics F)}
    {s : Reporter F} (hfile : cfg.fileSink = true) (h : Reporter.Reachable cfg samples s) :
    WriteInv cfg s := by
  induction h with
  | refl => exact .start cfg samples
  | tail _ hs ih =>
    cases hs with
    | sink hs => exact ih.sink hfile hs
    | delivery hs => cases hs <;> exact ih.keep rfl rfl rfl rfl rfl
    | callback hs =>
      cases hs with
      | dropLatest hpc => exact ih.keep rfl (by split <;> rfl) rfl rfl rfl
      | _ => exact ih.keep rfl rfl rfl rfl rfl

/-- The calls of `write_interval` and the result of a run over `samples`. -/
structure FileOutcome (fileWrite : ℕ → Except Error Unit) (samples written : List (Metrics F))
    (result : Except Error Unit) : Prop where
  succeeded : (∀ k < samples.length, fileWrite k = .ok ()) → written = samples ∧ result = .ok ()
  failed : ∀ n < samples.length, ∀ e, (∀ k < n, fileWrite k = .ok ()) →
    fileWrite n = .error e → written = samples.take (n + 1) ∧ result = .error e
  ok_iff : result = .ok () ↔ ∀ k < written.length, fileWrite k = .ok ()

omit [F64 F] in
theorem exists_first_failure {fileWrite : ℕ → Except Error Unit} {count : ℕ}
    (h : ¬ ∀ k < count, fileWrite k = .ok ()) :
    ∃ n < count, ∃ e, (∀ k < n, fileWrite k = .ok ()) ∧ fileWrite n = .error e := by
  induction count with
  | zero => exact absurd (fun k hk => absurd hk (Nat.not_lt_zero k)) h
  | succ count ih =>
    by_cases hall : ∀ k < count, fileWrite k = .ok ()
    · cases hn : fileWrite count with
      | error e => exact ⟨count, Nat.lt_succ_self count, e, hall, hn⟩
      | ok =>
        refine absurd (fun k hk => ?_) h
        rcases Nat.lt_succ_iff_lt_or_eq.mp hk with hlt | rfl
        · exact hall k hlt
        · exact hn
    · obtain ⟨n, hn, he⟩ := ih hall
      exact ⟨n, Nat.lt_succ_of_lt hn, he⟩

omit [F64 F] in
theorem FileOutcome.unique {fileWrite : ℕ → Except Error Unit}
    {samples written₁ written₂ : List (Metrics F)} {result₁ result₂ : Except Error Unit}
    (h₁ : FileOutcome fileWrite samples written₁ result₁)
    (h₂ : FileOutcome fileWrite samples written₂ result₂) :
    written₁ = written₂ ∧ result₁ = result₂ := by
  by_cases hall : ∀ k < samples.length, fileWrite k = .ok ()
  · obtain ⟨hw₁, hr₁⟩ := h₁.succeeded hall
    obtain ⟨hw₂, hr₂⟩ := h₂.succeeded hall
    exact ⟨hw₁.trans hw₂.symm, hr₁.trans hr₂.symm⟩
  · obtain ⟨n, hn, e, hlt, he⟩ := exists_first_failure hall
    obtain ⟨hw₁, hr₁⟩ := h₁.failed n hn e hlt he
    obtain ⟨hw₂, hr₂⟩ := h₂.failed n hn e hlt he
    exact ⟨hw₁.trans hw₂.symm, hr₁.trans hr₂.symm⟩

theorem ReporterConfig.queue_of_fileSink {cfg : ReporterConfig} (hfile : cfg.fileSink = true) :
    cfg.queue = .all := by
  simp only [ReporterConfig.queue, hfile, if_true]

theorem taken_prefix_samples {cfg : ReporterConfig} {samples : List (Metrics F)}
    {s : Reporter F} (hfile : cfg.fileSink = true) (h : RawInv cfg samples s) :
    s.raw.taken <+: samples := by
  have hsound := h.sound
  rw [ReporterConfig.queue_of_fileSink hfile] at hsound
  have hoff : s.raw.offered <+: samples := h.offered ▸ List.prefix_append _ _
  exact ((List.prefix_append _ _).trans hsound.1.isPrefix).trans hoff

/-- A run that has finished, without a deadline the platform cannot represent. -/
structure FinishedRun (cfg : ReporterConfig) (samples : List (Metrics F)) (s : Reporter F)
    (result : Except Error Unit) : Prop where
  reachable : Reporter.Reachable cfg samples s
  finished : s.Finished result
  representable : s.overflowed = false

theorem FinishedRun.fileOutcome {cfg : ReporterConfig} {samples : List (Metrics F)}
    {s : Reporter F} {result : Except Error Unit} (hfile : cfg.fileSink = true)
    (h : FinishedRun cfg samples s result) :
    FileOutcome cfg.fileWrite samples s.written result := by
  have hinv := h.reachable.inv
  have hw := h.reachable.writeInv hfile
  have hpc := h.finished.2
  have hq := ReporterConfig.queue_of_fileSink hfile
  cases result with
  | ok =>
    have hf : s.sink.failed = false := by rw [hpc]; rfl
    have hok := hw.succeeded hf
    have hc := hw.conserved hf
    simp only [hpc, SinkPc.unwritten, List.append_nil] at hc
    rw [(hinv.received hpc).2.2 hq] at hc
    refine ⟨fun _ => ⟨hc, rfl⟩, fun n hn e hlt he => ?_, fun _ => hok, fun _ => rfl⟩
    rw [hok n (hc ▸ hn)] at he
    cases he
  | error e =>
    obtain ⟨hwritten, n, hlen, he, hlt⟩ := hw.failed e (by rw [hpc]; rfl) h.representable
    have hpre : s.written <+: samples := hwritten ▸ taken_prefix_samples hfile hinv.raw
    have hle := hpre.length_le
    refine ⟨fun hall => ?_, fun m hm e' hlt' he' => ?_, fun hr => (by cases hr), fun hall => ?_⟩
    · rw [hall n (by omega)] at he
      cases he
    · have hmn : m = n := by
        by_contra hne
        rcases Nat.lt_or_gt_of_ne hne with hmn | hnm
        · rw [hlt m hmn] at he'
          cases he'
        · rw [hlt' n hnm] at he
          cases he
      subst hmn
      rw [he'] at he
      cases he
      exact ⟨hlen ▸ List.prefix_iff_eq_take.mp hpre, rfl⟩
    · rw [hall n (by omega)] at he
      cases he

/-- What the sink worker may be blocked on. -/
theorem sink_blocked (cfg : ReporterConfig) (s : Reporter F) (h : ∀ s', ¬ SinkStep cfg s s') :
    (s.sink = .waiting ∧ s.raw.chan.buf = [] ∧ s.raw.chan.senders ≠ 0) ∨
      (∃ result, s.sink = .joining result ∧ s.delivery ≠ .done) ∨
      ∃ result, s.sink = .done result := by
  have hst : s.events.stage = none := by
    cases hst : s.events.stage with
    | none => rfl
    | some stage => exact absurd (.enqueue stage hst) (h _)
  cases hpc : s.sink with
  | head =>
    cases hd : s.deadline with
    | none => exact absurd (.wait 0 hpc hst (by simp [hd])) (h _)
    | some flushAt => exact absurd (.overdue flushAt flushAt hpc hst hd le_rfl) (h _)
  | waiting =>
    cases hb : s.raw.chan.buf with
    | cons metrics rest => exact absurd (.receive metrics rest hpc hb) (h _)
    | nil => exact .inl ⟨rfl, rfl, fun hs => h _ (.disconnect hpc hb hs)⟩
  | writing metrics =>
    cases hw : cfg.writeOutcome s.written.length with
    | ok => exact absurd (.write metrics hpc hw) (h _)
    | error e => exact absurd (.writeFailed metrics e hpc hw) (h _)
  | processing metrics =>
    cases hmode : cfg.pushInterval with
    | none => exact absurd (.forward metrics hpc hmode) (h _)
    | some interval =>
      cases hd : s.deadline with
      | none =>
        cases harm : checkedDeadline cfg.limit 0 interval with
        | ok deadline => exact absurd (.first metrics interval 0 deadline hpc hmode hd harm) (h _)
        | error e => exact absurd (.firstFailed metrics interval 0 e hpc hmode hd harm) (h _)
      | some flushAt =>
        cases hc : windowContextChanges s.window metrics with
        | false => exact absurd (.join metrics interval flushAt hpc hmode hd hc) (h _)
        | true =>
          cases harm : checkedDeadline cfg.limit 0 interval with
          | ok deadline =>
            exact absurd (.split metrics interval 0 flushAt deadline hpc hmode hd hc harm) (h _)
          | error e =>
            exact absurd (.splitFailed metrics interval 0 flushAt e hpc hmode hd hc harm) (h _)
  | finalFlush => exact absurd (.finalFlush hpc) (h _)
  | returning result => exact absurd (.return result hpc) (h _)
  | droppingTx result => exact absurd (.dropTx result hpc) (h _)
  | droppingLatest result => exact absurd (.dropLatest result hpc) (h _)
  | joining result => exact .inr (.inl ⟨result, rfl, fun hd => h _ (.joinWorker result hpc hd)⟩)
  | done result => exact .inr (.inr ⟨result, rfl⟩)

theorem required_file (cfg₁ cfg₂ : ReporterConfig) (samples : List (Metrics F))
    (hfile₁ : cfg₁.fileSink = true) (hfile₂ : cfg₂.fileSink = true)
    (hwrite : cfg₁.fileWrite = cfg₂.fileWrite) :
    (∀ s₁ s₂ result₁ result₂, FinishedRun cfg₁ samples s₁ result₁ →
      FinishedRun cfg₂ samples s₂ result₂ → s₁.written = s₂.written ∧ result₁ = result₂) ∧
    (∀ s result, FinishedRun cfg₁ samples s result →
      FileOutcome cfg₁.fileWrite samples s.written result) ∧
    ∀ s, Reporter.Reachable cfg₁ samples s → s.overflowed = false →
      (∀ s', ¬ SinkStep cfg₁ s s') →
      (s.sink = .waiting ∧ s.raw.chan.buf = [] ∧ s.raw.chan.senders ≠ 0) ∨
        s.raw.chan.senders = 0 ∨ ∃ k < s.written.length, cfg₁.fileWrite k ≠ .ok () := by
  refine ⟨fun s₁ s₂ result₁ result₂ h₁ h₂ => ?_, fun s result h => h.fileOutcome hfile₁,
    fun s hreach hover hblocked => ?_⟩
  · have hout := h₂.fileOutcome hfile₂
    rw [← hwrite] at hout
    exact (h₁.fileOutcome hfile₁).unique hout
  · have hinv := hreach.inv
    have hw := hreach.writeInv hfile₁
    have hended : ∀ result, s.sink.result = some result →
        s.raw.chan.senders = 0 ∨ ∃ k < s.written.length, cfg₁.fileWrite k ≠ .ok () := by
      intro result hr
      cases result with
      | ok =>
        have hdr : s.sink.drained = true := by
          cases hpc : s.sink <;> simp_all [SinkPc.drained, SinkPc.result]
        have hne := (hinv.raw.drained hdr).1
        have hsend := hinv.raw.senders
        rw [if_neg hne] at hsend
        exact .inl hsend
      | error e =>
        obtain ⟨-, n, hlen, he, -⟩ := hw.failed e hr hover
        exact .inr ⟨n, by omega, by simp [he]⟩
    rcases sink_blocked cfg₁ s hblocked with hwait | ⟨result, hpc, -⟩ | ⟨result, hpc⟩
    · exact .inl hwait
    · exact .inr (hended result (by rw [hpc]; rfl))
    · exact .inr (hended result (by rw [hpc]; rfl))

def diskFull : Error := ⟨.metricsFile, "failed to write metrics file"⟩

def failingFile (pushInterval : Option Duration) : ReporterConfig where
  pushInterval := pushInterval
  fileSink := true
  fileWrite k := if k = 0 then .ok () else .error diskFull
  limit := 10 ^ 12
  retries := 0
  deleteOnFinish := false

def everySecond : Duration := .second

theorem required_file_of_failing_write : ∃ s₁ s₂ : Reporter ExactF64,
    FinishedRun (failingFile none) [senderSample, receiverSample] s₁ (.error diskFull) ∧
    FinishedRun (failingFile (some everySecond)) [senderSample, receiverSample] s₂
      (.error diskFull) ∧
    s₁.written = s₂.written := by
  have h₁ : Reporter.Reachable (failingFile none) [senderSample, receiverSample] _ := .refl
  have h₁ := h₁.tail (.callback (.emit senderSample [receiverSample] rfl rfl rfl))
  have h₁ := h₁.tail (.callback (.emit receiverSample [] rfl rfl rfl))
  have h₁ := h₁.tail (.sink (.wait 0 rfl rfl (by simp [Reporter.start])))
  have h₁ := h₁.tail (.sink (.receive senderSample [receiverSample] rfl rfl))
  have h₁ := h₁.tail (.sink (.write senderSample rfl rfl))
  have h₁ := h₁.tail (.sink (.forward senderSample rfl rfl))
  have h₁ := h₁.tail (.delivery (.receive (.interval senderSample) [] rfl rfl))
  have h₁ := h₁.tail (.sink (.wait 0 rfl rfl (by simp [Reporter.start])))
  have h₁ := h₁.tail (.sink (.receive receiverSample [] rfl rfl))
  have h₁ := h₁.tail (.sink (.writeFailed receiverSample diskFull rfl rfl))
  have h₁ := h₁.tail (.sink (.return _ rfl))
  have h₁ := h₁.tail (.sink (.dropTx _ rfl))
  have h₁ := h₁.tail (.sink (.dropLatest _ rfl))
  have h₁ := h₁.tail (.delivery (.request _ 0 rfl))
  have h₁ := h₁.tail (.delivery (.respond _ 0 (.failure true) rfl (by simp [failingFile])))
  have h₁ := h₁.tail (.delivery (.finish rfl rfl rfl))
  have h₁ := h₁.tail (.sink (.joinWorker _ rfl rfl))
  have h₁ := h₁.tail (.callback (.unregister rfl rfl rfl))
  have h₁ := h₁.tail (.callback (.dropLatest rfl))
  have h₂ : Reporter.Reachable (failingFile (some everySecond)) [senderSample, receiverSample] _ :=
    .refl
  have h₂ := h₂.tail (.callback (.emit senderSample [receiverSample] rfl rfl rfl))
  have h₂ := h₂.tail (.sink (.wait 0 rfl rfl (by simp [Reporter.start])))
  have h₂ := h₂.tail (.sink (.receive senderSample [] rfl rfl))
  have h₂ := h₂.tail (.sink (.write senderSample rfl rfl))
  have h₂ := h₂.tail (.sink (.first senderSample everySecond 0 _ rfl rfl rfl rfl))
  have h₂ := h₂.tail (.sink (.overdue (10 ^ 9) _ rfl rfl rfl (by decide)))
  have h₂ := h₂.tail (.sink (.wait (10 ^ 9) rfl rfl (fun _ hd => (by cases hd))))
  have h₂ := h₂.tail (.callback (.emit receiverSample [] rfl rfl rfl))
  have h₂ := h₂.tail (.sink (.receive receiverSample [] rfl rfl))
  have h₂ := h₂.tail (.sink (.writeFailed receiverSample diskFull rfl rfl))
  have h₂ := h₂.tail (.sink (.return _ rfl))
  have h₂ := h₂.tail (.sink (.dropTx _ rfl))
  have h₂ := h₂.tail (.sink (.dropLatest _ rfl))
  have h₂ := h₂.tail (.callback (.unregister rfl rfl rfl))
  have h₂ := h₂.tail (.callback (.dropLatest rfl))
  have h₂ := h₂.tail (.delivery (.receive _ [] rfl rfl))
  have h₂ := h₂.tail (.delivery (.request _ 0 rfl))
  have h₂ := h₂.tail (.delivery (.respond _ 0 .success rfl (by simp)))
  have h₂ := h₂.tail (.delivery (.finish rfl rfl rfl))
  have h₂ := h₂.tail (.sink (.joinWorker _ rfl rfl))
  have hsame := (required_file (failingFile none) (failingFile (some everySecond))
    [senderSample, receiverSample] rfl rfl rfl).1
  refine ⟨_, _, ⟨h₁, ⟨rfl, rfl⟩, rfl⟩, ⟨h₂, ⟨rfl, rfl⟩, rfl⟩, ?_⟩
  exact (hsame _ _ _ _ ⟨h₁, ⟨rfl, rfl⟩, rfl⟩ ⟨h₂, ⟨rfl, rfl⟩, rfl⟩).1

end Iperf3Rs
