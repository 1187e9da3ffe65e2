import Iperf3Rs.CounterEpochs
import Iperf3Rs.IntervalSample
import Mathlib.Data.Int.Bitwise
import Mathlib.Data.List.Forall2

/-! `iperf3rs_stats_callback`. The reorder counters of the streams are cumulative; the callback
reads them before and after the statistics of upstream are collected and reports the differences.
The callback of upstream is a parameter. Each pair of values that is compared is kept as a
history. -/

namespace Iperf3Rs

/-- A stream with the reorder counters of its interval results, oldest first. -/
structure ReorderStream where
  id : ℕ
  sender : Bool
  reorder : List ℤ
  deriving DecidableEq

def reorderDelta (current previous : ℤ) : ℤ :=
  if current < 0 ∨ previous < 0 then -1
  else if current < previous then current
  else current - previous

/-- What was compared for the stream at a position of the list. -/
structure Pairing where
  position : ℕ
  current : ℤ
  previous : ℤ
  deriving DecidableEq

def Pairing.delta (p : Pairing) : ℤ := reorderDelta p.current p.previous

def IntervalReorder.add (report : IntervalReorder) (delta : ℤ) : IntervalReorder :=
  let (events, added) := addNonnegative report.events delta
  ⟨events, Int.lor report.available added⟩

/-- One call of the callback: the streams around it, what it reports and how it came to it. -/
structure Collection where
  before : List ReorderStream
  after : List ReorderStream
  report : IntervalReorder
  pairings : List Pairing
  deriving DecidableEq

def capture (streams : List ReorderStream) : List ℤ :=
  (streams.filter (·.sender)).map fun stream => stream.reorder.getLast?.getD 0

/-- The traversal after the collection, from a position and an index of the array on. A stream
without results or an index past the array is an error. -/
def accountDeltas (previous : List ℤ) :
    ℕ → ℕ → List ReorderStream → IntervalReorder → Option (IntervalReorder × List Pairing)
  | _, _, [], report => some (report, [])
  | position, index, stream :: streams, report =>
    if stream.sender then
      match stream.reorder.getLast?, previous[index]? with
      | some current, some captured =>
        let delta := reorderDelta current captured
        (accountDeltas previous (position + 1) (index + 1) streams (report.add delta)).map
          fun (report, pairings) => (report, ⟨position, current, captured⟩ :: pairings)
      | _, _ => none
    else accountDeltas previous (position + 1) index streams report

def statsCallback (test : IperfTest) (upstream : List ReorderStream → List ReorderStream)
    (streams : List ReorderStream) : Option Collection :=
  let reset : IntervalReorder := ⟨0, 0⟩
  let plain : Collection := ⟨streams, upstream streams, reset, []⟩
  if test.protocol ≠ .tcp ∨ test.senderHasRetransmits ≠ 1 ∨ streamMustBeSender test = 0 then
    some plain
  else if streams.countP (·.sender) = 0 then some plain
  else
    let previous := capture streams
    let after := upstream streams
    (accountDeltas previous 0 0 after reset).map
      fun (report, pairings) => ⟨streams, after, report, pairings⟩

/-- What upstream's collection does to a stream: it appends an interval result or replaces the
last one. -/
structure Collects (s s' : ReorderStream) : Prop where
  id : s'.id = s.id
  sender : s'.sender = s.sender
  last : ∃ value, s'.reorder = s.reorder ++ [value] ∨ s'.reorder = s.reorder.dropLast ++ [value]

/-- The runs of successive collections over one list of streams. -/
inductive Collections (test : IperfTest) (start : List ReorderStream) :
    List Collection → List ReorderStream → Prop
  | start : Collections test start [] start
  | collect {trace : List Collection} {streams : List ReorderStream} {c : Collection}
      (upstream : List ReorderStream → List ReorderStream)
      (h : Collections test start trace streams)
      (hupstream : List.Forall₂ Collects streams (upstream streams))
      (hcall : statsCallback test upstream streams = some c) :
      Collections test start (trace ++ [c]) c.after

namespace ReorderStream

/-- The last counter; a stream without results has counted nothing. -/
def counter (stream : ReorderStream) : ℤ := stream.reorder.getLast?.getD 0

end ReorderStream

namespace Collection

/-- The counter of the stream at a position after the collection. -/
def value (c : Collection) (position : ℕ) : ℤ := (c.after[position]?).elim 0 (·.counter)

def delta (c : Collection) (position : ℕ) : ℤ :=
  (c.pairings.find? (·.position == position)).elim 0 Pairing.delta

end Collection

/-- The pairs that belong together: each sending stream with itself. -/
def ownPairings : ℕ → List ReorderStream → List ReorderStream → List Pairing
  | position, stream :: before, stream' :: after =>
    if stream'.sender then
      ⟨position, stream'.counter, stream.counter⟩ :: ownPairings (position + 1) before after
    else ownPairings (position + 1) before after
  | _, _, _ => []

theorem Collects.getLast? {s s' : ReorderStream} (h : Collects s s') :
    s'.reorder.getLast? = some s'.counter := by
  obtain ⟨value, hlast | hlast⟩ := h.last
  all_goals
    rw [ReorderStream.counter, hlast, List.getLast?_concat]
    rfl

theorem accountDeltas_own {before after : List ReorderStream}
    (h : List.Forall₂ Collects before after) (front : List ℤ) (position : ℕ)
    (report : IntervalReorder) :
    accountDeltas (front ++ capture before) position front.length after report =
      some ((ownPairings position before after).foldl (fun r p => r.add p.delta) report,
        ownPairings position before after) := by
  induction h generalizing front position report with
  | nil => rfl
  | @cons s s' before after hs _ ih =>
    cases hsender : s.sender with
    | false =>
      have hsender' : s'.sender = false := hs.sender.trans hsender
      have hcapture : capture (s :: before) = capture before := by
        rw [capture, List.filter_cons_of_neg (by simp [hsender]), capture]
      simp only [accountDeltas, ownPairings, hsender', Bool.false_eq_true, if_false, hcapture]
      exact ih front (position + 1) report
    | true =>
      have hsender' : s'.sender = true := hs.sender.trans hsender
      have hcapture : capture (s :: before) = s.counter :: capture before := by
        rw [capture, List.filter_cons_of_pos hsender]
        rfl
      have hindex : (front ++ s.counter :: capture before)[front.length]? = some s.counter := by
        simp
      have hrest := ih (front ++ [s.counter]) (position + 1)
        (report.add (reorderDelta s'.counter s.counter))
      rw [List.append_assoc, List.singleton_append, List.length_append,
        List.length_singleton] at hrest
      simp only [accountDeltas, ownPairings, hsender', if_true, hcapture, hs.getLast?, hindex, hrest,
        Option.map_some, List.foldl_cons, Pairing.delta]

def SendsTcp (test : IperfTest) : Prop :=
  test.protocol = .tcp ∧ test.senderHasRetransmits = 1 ∧ streamMustBeSender test ≠ 0

theorem ownPairings_of_no_sender {before after : List ReorderStream}
    (h : List.Forall₂ Collects before after) (hcount : before.countP (·.sender) = 0)
    (position : ℕ) : ownPairings position before after = [] := by
  induction h generalizing position with
  | nil => rfl
  | @cons s s' before after hs _ ih =>
    have hnone := List.countP_eq_zero.mp hcount
    have hsender : s'.sender = false := by
      rw [hs.sender]
      simpa using hnone s List.mem_cons_self
    have hrest : before.countP (·.sender) = 0 :=
      List.countP_eq_zero.mpr fun t ht => hnone t (List.mem_cons_of_mem _ ht)
    rw [ownPairings, if_neg (by simp [hsender])]
    exact ih hrest (position + 1)

/-- A collection neither fails nor pairs a stream with another. -/
theorem statsCallback_eq {test : IperfTest} (hkind : SendsTcp test)
    {upstream : List ReorderStream → List ReorderStream} {streams : List ReorderStream}
    (h : List.Forall₂ Collects streams (upstream streams)) :
    statsCallback test upstream streams =
      some ⟨streams, upstream streams,
        (ownPairings 0 streams (upstream streams)).foldl (fun r p => r.add p.delta) ⟨0, 0⟩,
        ownPairings 0 streams (upstream streams)⟩ := by
  obtain ⟨htcp, hretransmits, hsender⟩ := hkind
  have hactive : ¬(test.protocol ≠ .tcp ∨ test.senderHasRetransmits ≠ 1 ∨
      streamMustBeSender test = 0) := by
    simp [htcp, hretransmits, hsender]
  rw [statsCallback, if_neg hactive]
  by_cases hcount : streams.countP (·.sender) = 0
  · rw [if_pos hcount, ownPairings_of_no_sender h hcount]
    rfl
  · have hdeltas := accountDeltas_own h [] 0 ⟨0, 0⟩
    rw [List.nil_append, List.length_nil] at hdeltas
    rw [if_neg hcount]
    simp only [hdeltas, Option.map_some]

theorem mem_ownPairings {before after : List ReorderStream} {position : ℕ} {p : Pairing}
    (hp : p ∈ ownPairings position before after) :
    ∃ k s s', before[k]? = some s ∧ after[k]? = some s' ∧ s'.sender = true ∧
      p = ⟨position + k, s'.counter, s.counter⟩ := by
  induction before generalizing position after with
  | nil => cases hp
  | cons s before ih =>
    cases after with
    | nil => cases hp
    | cons s' after =>
      have hlater : p ∈ ownPairings (position + 1) before after →
          ∃ k t t', (s :: before)[k]? = some t ∧ (s' :: after)[k]? = some t' ∧
            t'.sender = true ∧ p = ⟨position + k, t'.counter, t.counter⟩ := by
        intro hrest
        obtain ⟨k, t, t', ht, ht', hsender, rfl⟩ := ih hrest
        refine ⟨k + 1, t, t', ht, ht', hsender, ?_⟩
        rw [Nat.add_right_comm position 1 k, Nat.add_assoc]
      rw [ownPairings] at hp
      by_cases hsender : s'.sender = true
      · rw [if_pos hsender] at hp
        rcases List.mem_cons.mp hp with rfl | hrest
        · exact ⟨0, s, s', rfl, rfl, hsender, rfl⟩
        · exact hlater hrest
      · rw [if_neg hsender] at hp
        exact hlater hp

theorem find_ownPairings (position : ℕ) {before after : List ReorderStream} {k : ℕ}
    {s s' : ReorderStream} (hs : before[k]? = some s) (hs' : after[k]? = some s')
    (hsender : s'.sender = true) :
    (ownPairings position before after).find? (·.position == position + k) =
      some ⟨position + k, s'.counter, s.counter⟩ := by
  induction k generalizing position before after with
  | zero =>
    obtain ⟨before, rfl⟩ : ∃ rest, before = s :: rest := by
      cases before with
      | nil => cases hs
      | cons t before =>
        cases hs
        exact ⟨before, rfl⟩
    obtain ⟨after, rfl⟩ : ∃ rest, after = s' :: rest := by
      cases after with
      | nil => cases hs'
      | cons t after =>
        cases hs'
        exact ⟨after, rfl⟩
    rw [ownPairings, if_pos hsender, List.find?_cons_of_pos (by simp)]
    rfl
  | succ k ih =>
    cases before with
    | nil => cases hs
    | cons t before =>
      cases after with
      | nil => cases hs'
      | cons t' after =>
        have hrest := ih (position + 1) hs hs'
        rw [Nat.add_right_comm, Nat.add_assoc] at hrest
        rw [ownPairings]
        by_cases ht : t'.sender = true
        · rw [if_pos ht, List.find?_cons_of_neg (by simp), hrest]
        · rw [if_neg ht, hrest]

theorem Pairing.delta_nonneg (p : Pairing) : 0 ≤ p.delta ↔ 0 ≤ p.current ∧ 0 ≤ p.previous := by
  rw [delta, reorderDelta]
  by_cases h : p.current < 0 ∨ p.previous < 0
  · rw [if_pos h]
    omega
  · rw [if_neg h]
    by_cases hlt : p.current < p.previous
    · rw [if_pos hlt]
      omega
    · rw [if_neg hlt]
      omega

theorem reorderDelta_eq_increment {current previous : ℤ} (hc : 0 ≤ current) (hp : 0 ≤ previous) :
    reorderDelta current previous = CounterEpochs.increment current previous := by
  have h : ¬(current < 0 ∨ previous < 0) := by omega
  rw [reorderDelta, if_neg h, CounterEpochs.increment]

theorem add_events (report : IntervalReorder) (delta : ℤ) :
    (report.add delta).events = report.events + if 0 ≤ delta then (delta : ℚ) else 0 := by
  rw [IntervalReorder.add, addNonnegative]
  by_cases h : delta < 0
  · simp [h]
  · simp [h, Int.not_lt.mp h]

def IntervalReorder.IsFlag (report : IntervalReorder) : Prop :=
  report.available = 0 ∨ report.available = 1

theorem add_available {report : IntervalReorder} (h : report.IsFlag) (delta : ℤ) :
    (report.add delta).IsFlag ∧
      ((report.add delta).available = 1 ↔ report.available = 1 ∨ 0 ≤ delta) := by
  have hlor : ∀ added : ℤ, added = 0 ∨ added = 1 →
      Int.lor report.available added = 0 ∧ report.available = 0 ∧ added = 0 ∨
        Int.lor report.available added = 1 ∧ (report.available = 1 ∨ added = 1) := by
    rcases h with h | h
    all_goals
      rw [h]
      rintro added (rfl | rfl)
      all_goals decide
  rw [IntervalReorder.IsFlag, IntervalReorder.add, addNonnegative]
  by_cases hd : delta < 0
  · rw [if_pos hd]
    have hbit := hlor 0 (.inl rfl)
    dsimp only
    omega
  · rw [if_neg hd]
    have hbit := hlor 1 (.inr rfl)
    dsimp only
    omega

theorem foldl_add_events (pairings : List Pairing) (report : IntervalReorder) :
    (pairings.foldl (fun r p => r.add p.delta) report).events =
      report.events + ((pairings.filter fun p => 0 ≤ p.delta).map fun p => (p.delta : ℚ)).sum := by
  induction pairings generalizing report with
  | nil => simp
  | cons p pairings ih =>
    rw [List.foldl_cons, ih, add_events]
    by_cases h : 0 ≤ p.delta
    · rw [if_pos h, List.filter_cons_of_pos (by simpa using h), List.map_cons, List.sum_cons,
        add_assoc]
    · rw [if_neg h, List.filter_cons_of_neg (by simpa using h), add_zero]

theorem foldl_add_available (pairings : List Pairing) {report : IntervalReorder}
    (h : report.IsFlag) :
    (pairings.foldl (fun r p => r.add p.delta) report).IsFlag ∧
      ((pairings.foldl (fun r p => r.add p.delta) report).available = 1 ↔
        report.available = 1 ∨ ∃ p ∈ pairings, 0 ≤ p.delta) := by
  induction pairings generalizing report with
  | nil => exact ⟨h, by simp⟩
  | cons p pairings ih =>
    obtain ⟨hflag, hone⟩ := add_available h p.delta
    obtain ⟨hrest, hlast⟩ := ih hflag
    refine ⟨hrest, hlast.trans ?_⟩
    rw [hone]
    simp [or_assoc]

/-- What one call reports: each sending stream is compared with itself, and the interval is
available if a stream has contributed. -/
structure Attributed (c : Collection) : Prop where
  paired : ∀ p ∈ c.pairings, ∃ s s', c.before[p.position]? = some s ∧
    c.after[p.position]? = some s' ∧ s'.id = s.id ∧ s.sender = true ∧
    p.current = s'.counter ∧ p.previous = s.counter
  complete : ∀ position s, c.before[position]? = some s → s.sender = true →
    ∃ p ∈ c.pairings, p.position = position
  contributes : ∀ p ∈ c.pairings, 0 ≤ p.delta ↔ 0 ≤ p.current ∧ 0 ≤ p.previous
  events : c.report.events =
    ((c.pairings.filter fun p => 0 ≤ p.delta).map fun p => (p.delta : ℚ)).sum
  flag : c.report.IsFlag
  available : c.report.available = 1 ↔ ∃ p ∈ c.pairings, 0 ≤ p.delta

section Call

variable {test : IperfTest} {upstream : List ReorderStream → List ReorderStream}
  {streams : List ReorderStream} {c : Collection}

/-- Upstream keeps the list, so the stream at a position stays there. -/
theorem exists_collected (hupstream : List.Forall₂ Collects streams (upstream streams))
    {position : ℕ} {s : ReorderStream} (hs : streams[position]? = some s) :
    ∃ s', (upstream streams)[position]? = some s' ∧ Collects s s' := by
  have hlen := hupstream.length_eq
  obtain ⟨hposition, rfl⟩ := List.getElem?_eq_some_iff.mp hs
  exact ⟨_, List.getElem?_eq_getElem (hlen ▸ hposition),
    (List.forall₂_iff_get.mp hupstream).2 position hposition _⟩

theorem attributed_of_call (hkind : SendsTcp test)
    (hupstream : List.Forall₂ Collects streams (upstream streams))
    (hcall : statsCallback test upstream streams = some c) : Attributed c := by
  obtain rfl := Option.some.inj ((statsCallback_eq hkind hupstream).symm.trans hcall)
  refine ⟨fun p hp => ?_, fun position s hs hsender => ?_, fun p _ => p.delta_nonneg, ?_, ?_, ?_⟩
  · obtain ⟨k, s, s', hs, hs', hsender, rfl⟩ := mem_ownPairings hp
    obtain ⟨t, ht, hcollects⟩ := exists_collected hupstream hs
    obtain rfl := Option.some.inj (ht.symm.trans hs')
    rw [Nat.zero_add]
    exact ⟨s, t, hs, hs', hcollects.id, hcollects.sender.symm.trans hsender, rfl, rfl⟩
  · obtain ⟨s', hs', hcollects⟩ := exists_collected hupstream hs
    have hfind := find_ownPairings 0 hs hs' (hcollects.sender.trans hsender)
    exact ⟨_, List.mem_of_find?_eq_some hfind, Nat.zero_add position⟩
  · have hevents := foldl_add_events (ownPairings 0 streams (upstream streams)) ⟨0, 0⟩
    rwa [zero_add] at hevents
  · exact (foldl_add_available _ (.inl rfl)).1
  · have hstart : (⟨0, 0⟩ : IntervalReorder).IsFlag := .inl rfl
    have havailable := (foldl_add_available (ownPairings 0 streams (upstream streams)) hstart).2
    simpa using havailable

/-- A call moves the counter of a sending stream on and attributes the difference to it. -/
theorem delta_of_call (hkind : SendsTcp test)
    (hupstream : List.Forall₂ Collects streams (upstream streams))
    (hcall : statsCallback test upstream streams = some c) {position : ℕ} {s : ReorderStream}
    (hs : streams[position]? = some s) (hsender : s.sender = true) :
    c.delta position = reorderDelta (c.value position) s.counter ∧
      ∃ s', c.after[position]? = some s' ∧ s'.sender = true ∧
        s'.counter = c.value position := by
  obtain rfl := Option.some.inj ((statsCallback_eq hkind hupstream).symm.trans hcall)
  obtain ⟨s', hs', hcollects⟩ := exists_collected hupstream hs
  have hsender' := hcollects.sender.trans hsender
  have hfind := find_ownPairings 0 hs hs' hsender'
  rw [Nat.zero_add] at hfind
  have hvalue : ((upstream streams)[position]?).elim 0 (·.counter) = s'.counter := by
    rw [hs']
    rfl
  refine ⟨?_, s', hs', hsender', ?_⟩
  · rw [Collection.delta, hfind, Collection.value, hvalue]
    rfl
  · rw [Collection.value, hvalue]

end Call

section Run

variable {test : IperfTest} {start streams : List ReorderStream} {trace : List Collection}

theorem Collections.attributed (hkind : SendsTcp test)
    (h : Collections test start trace streams) : ∀ c ∈ trace, Attributed c := by
  induction h with
  | start =>
    intro c hc
    cases hc
  | collect upstream _ hupstream hcall ih =>
    intro c hc
    rcases List.mem_append.mp hc with hc | hc
    · exact ih c hc
    · rw [List.mem_singleton.mp hc]
      exact attributed_of_call hkind hupstream hcall

/-- Over a run, a sending stream is compared with itself from collection to collection. -/
theorem Collections.deltas (hkind : SendsTcp test) (h : Collections test start trace streams)
    {position : ℕ} {s : ReorderStream} (hs : start[position]? = some s)
    (hsender : s.sender = true) :
    (∃ s', streams[position]? = some s' ∧ s'.sender = true ∧
      s'.counter = (trace.map (·.value position)).getLast?.getD s.counter) ∧
      trace.map (·.delta position) =
        CounterEpochs.successive reorderDelta s.counter (trace.map (·.value position)) := by
  induction h with
  | start => exact ⟨⟨s, hs, hsender, rfl⟩, rfl⟩
  | @collect trace streams c upstream _ hupstream hcall ih =>
    obtain ⟨⟨t, ht, htsender, hcounter⟩, hdeltas⟩ := ih
    obtain ⟨hdelta, s', hs', hsender', hvalue⟩ :=
      delta_of_call hkind hupstream hcall ht htsender
    refine ⟨⟨s', hs', hsender', ?_⟩, ?_⟩
    · rw [List.map_append, List.map_singleton, List.getLast?_concat, hvalue]
      rfl
    · rw [List.map_append, List.map_append, List.map_singleton, List.map_singleton,
        CounterEpochs.successive_append, hdeltas, hdelta, hcounter]

end Run

/-- The deltas of a stream in a run, against its counters. -/
structure Telescopes (s : ReorderStream) (values deltas : List ℤ) : Prop where
  own : deltas = CounterEpochs.successive reorderDelta s.counter values
  nonneg : 0 ≤ s.counter → (∀ v ∈ values, 0 ≤ v) → ∀ d ∈ deltas, 0 ≤ d
  epochs : 0 ≤ s.counter → (∀ v ∈ values, 0 ≤ v) →
    deltas.sum = CounterEpochs.endSum (s.counter :: values) - s.counter
  fresh : s.reorder = [] → (∀ v ∈ values, 0 ≤ v) →
    deltas.sum = CounterEpochs.endSum values
  increasing : s.reorder = [] → (∀ v ∈ values, 0 ≤ v) → values.IsChain (· ≤ ·) →
    deltas.sum = values.getLast?.getD 0

theorem telescopes_of_own {s : ReorderStream} {values deltas : List ℤ}
    (h : deltas = CounterEpochs.successive reorderDelta s.counter values) :
    Telescopes s values deltas := by
  have hincrements : 0 ≤ s.counter → (∀ v ∈ values, 0 ≤ v) →
      deltas = CounterEpochs.increments s.counter values := by
    intro hcounter hvalues
    rw [h]
    exact CounterEpochs.successive_congr (fun _ _ => reorderDelta_eq_increment) hcounter hvalues
  have hfresh : s.reorder = [] → (∀ v ∈ values, 0 ≤ v) →
      deltas.sum = CounterEpochs.endSum values := by
    intro hreorder hvalues
    have hcounter : s.counter = 0 := by
      rw [ReorderStream.counter, hreorder]
      rfl
    rw [hincrements (by omega) hvalues, CounterEpochs.sum_increments, hcounter,
      CounterEpochs.endSum_zero_cons hvalues, sub_zero]
  refine ⟨h, fun hcounter hvalues => ?_, fun hcounter hvalues => ?_, hfresh,
    fun hreorder hvalues hchain => ?_⟩
  · rw [hincrements hcounter hvalues]
    exact CounterEpochs.increments_nonneg hvalues _
  · rw [hincrements hcounter hvalues, CounterEpochs.sum_increments]
  · rw [hfresh hreorder hvalues, CounterEpochs.endSum_of_increasing hchain]

theorem reorder_intervals {test : IperfTest} {start streams : List ReorderStream}
    {trace : List Collection} (hkind : SendsTcp test)
    (h : Collections test start trace streams) :
    (∀ c ∈ trace, Attributed c) ∧
      (∀ position s, start[position]? = some s → s.sender = true →
        Telescopes s (trace.map (·.value position)) (trace.map (·.delta position))) ∧
      ∀ upstream : List ReorderStream → List ReorderStream,
        List.Forall₂ Collects streams (upstream streams) →
        ∃ c, statsCallback test upstream streams = some c :=
  ⟨h.attributed hkind, fun _ _ hs hsender => telescopes_of_own (h.deltas hkind hs hsender).2,
    fun _ hupstream => ⟨_, statsCallback_eq hkind hupstream⟩⟩

/-- A receiving stream and a sending one, whose counter is reset in the second interval. -/
def resetStart : List ReorderStream := [⟨3, false, [9]⟩, ⟨1, true, []⟩]

def resetMiddle : List ReorderStream := [⟨3, false, [9, 9]⟩, ⟨1, true, [5]⟩]

def resetEnd : List ReorderStream := [⟨3, false, [9, 9, 9]⟩, ⟨1, true, [2]⟩]

def resetTrace : List Collection :=
  [⟨resetStart, resetMiddle, ⟨5, 1⟩, [⟨1, 5, 0⟩]⟩, ⟨resetMiddle, resetEnd, ⟨2, 1⟩, [⟨1, 2, 5⟩]⟩]

theorem reorder_intervals_reset :
    (resetTrace.map (·.delta 1)).sum = CounterEpochs.endSum [5, 2] := by
  have hkind : SendsTcp duplexTest := ⟨rfl, rfl, by decide⟩
  have hfirst : List.Forall₂ Collects resetStart resetMiddle :=
    .cons ⟨rfl, rfl, 9, .inl rfl⟩ (.cons ⟨rfl, rfl, 5, .inl rfl⟩ .nil)
  have hsecond : List.Forall₂ Collects resetMiddle resetEnd :=
    .cons ⟨rfl, rfl, 9, .inl rfl⟩ (.cons ⟨rfl, rfl, 2, .inr rfl⟩ .nil)
  have hrun : Collections duplexTest resetStart resetTrace resetEnd := by
    have hstart : Collections duplexTest resetStart [] resetStart := .start
    have hmiddle := hstart.collect (fun _ => resetMiddle)
      (c := ⟨resetStart, resetMiddle, ⟨5, 1⟩, [⟨1, 5, 0⟩]⟩) hfirst (by decide +kernel)
    exact hmiddle.collect (fun _ => resetEnd)
      (c := ⟨resetMiddle, resetEnd, ⟨2, 1⟩, [⟨1, 2, 5⟩]⟩) hsecond (by decide +kernel)
  have htelescopes := (reorder_intervals hkind hrun).2.1 1 ⟨1, true, []⟩ rfl rfl
  exact htelescopes.fresh rfl (by decide)

end Iperf3Rs
