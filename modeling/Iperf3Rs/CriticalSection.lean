import Mathlib.Data.List.Induction
import Mathlib.Logic.Function.Basic
import Mathlib.Logic.Relation

/-! Sections of code under one lock. A thread that has taken the lock picks its actions for the
state it finds and takes them one at a time, in between steps of other threads. -/

namespace Iperf3Rs

namespace CriticalSection

variable {ι A S : Type*}

inductive Place (A : Type*) where
  | waiting
  | inside (rest : List A)
  | left

/-- `entered` is a history: the threads in the order in which they have taken the lock. -/
structure Threads (ι A S : Type*) where
  state : S
  place : ι → Place A
  entered : List ι

def Threads.start (state : S) : Threads ι A S := ⟨state, fun _ => .waiting, []⟩

def Threads.Free (m : Threads ι A S) : Prop := ∀ i rest, m.place i ≠ .inside rest

section Run

variable [DecidableEq ι] (program : ι → S → List A) (apply : S → A → S)

inductive Step (m : Threads ι A S) : Threads ι A S → Prop
  | enter (i : ι) (hplace : m.place i = .waiting) (hfree : m.Free) :
      Step m ⟨m.state, Function.update m.place i (.inside (program i m.state)), m.entered ++ [i]⟩
  | act (i : ι) (a : A) (rest : List A) (hplace : m.place i = .inside (a :: rest)) :
      Step m ⟨apply m.state a, Function.update m.place i (.inside rest), m.entered⟩
  | leave (i : ι) (hplace : m.place i = .inside []) :
      Step m ⟨m.state, Function.update m.place i .left, m.entered⟩

abbrev Reachable (state : S) : Threads ι A S → Prop :=
  Relation.ReflTransGen (Step program apply) (.start state)

/-- One whole section. -/
def runSection (s : S) (i : ι) : S := (program i s).foldl apply s

/-- The sections of these threads, one after the other. -/
def serial (state : S) (order : List ι) : S := order.foldl (runSection program apply) state

/-- The state is that of the sections entered, one after the other, of which the last may be cut
off. -/
inductive Serial (state : S) (m : Threads ι A S) : Prop
  | idle (hfree : m.Free) (hstate : m.state = serial program apply state m.entered)
  | inside (i : ι) (before : List ι) (done rest : List A) (hplace : m.place i = .inside rest)
      (honly : ∀ j rest', m.place j = .inside rest' → j = i)
      (hentered : m.entered = before ++ [i])
      (hprogram : program i (serial program apply state before) = done ++ rest)
      (hstate : m.state = done.foldl apply (serial program apply state before))

variable {program apply} {state : S} {m m' : Threads ι A S}

omit [DecidableEq ι] in
theorem serial_concat (order : List ι) (i : ι) : serial program apply state (order ++ [i]) =
    runSection program apply (serial program apply state order) i := by
  simp [serial]

theorem Serial.step (h : Serial program apply state m) (hstep : Step program apply m m') :
    Serial program apply state m' := by
  cases hstep with
  | enter i hplace hfree =>
    cases h with
    | inside j before done rest hinside =>
      exact absurd hinside (hfree j rest)
    | idle _ hstate =>
      refine .inside i m.entered [] _ (Function.update_self ..) (fun j rest' hj => ?_) rfl
        (by rw [List.nil_append, hstate]) hstate
      by_contra hne
      exact hfree j rest' ((Function.update_of_ne hne ..).symm.trans hj)
  | act i a rest hplace =>
    cases h with
    | idle hfree => exact absurd hplace (hfree i _)
    | inside j before done rest' hinside honly hentered hprogram hstate =>
      obtain rfl := honly i _ hplace
      obtain rfl : rest' = a :: rest := by
        rw [hplace] at hinside
        cases hinside
        rfl
      refine .inside i before (done ++ [a]) rest (Function.update_self ..) (fun k rest' hk => ?_)
        hentered (by rw [hprogram]; simp) (by rw [List.foldl_append, ← hstate]; rfl)
      by_contra hne
      exact hne (honly k rest' ((Function.update_of_ne hne ..).symm.trans hk))
  | leave i hplace =>
    cases h with
    | idle hfree => exact absurd hplace (hfree i _)
    | inside j before done rest' hinside honly hentered hprogram hstate =>
      obtain rfl := honly i _ hplace
      obtain rfl : rest' = [] := by
        rw [hplace] at hinside
        cases hinside
        rfl
      refine .idle (fun k rest' hk => ?_) ?_
      · change Function.update m.place i .left k = .inside rest' at hk
        by_cases hki : k = i
        · rw [hki, Function.update_self] at hk
          cases hk
        · rw [Function.update_of_ne hki] at hk
          exact hki (honly k rest' hk)
      · simp only [hentered, serial_concat, runSection, hprogram, List.append_nil]
        exact hstate

theorem serial_of_reachable (h : Reachable program apply state m) :
    Serial program apply state m := by
  induction h with
  | refl => exact .idle (fun _ _ => nofun) rfl
  | tail _ hstep ih => exact ih.step hstep

/-- The rule for what every section entered restores: it holds whenever the lock is free. What
every cut of a section keeps besides holds at all times. -/
theorem invariant {I M : S → Prop} (hstart : I state) (hmeanwhile : ∀ s, I s → M s)
    (hsection : ∀ i ∈ m.entered, ∀ s, I s → I (runSection program apply s i))
    (hcut : ∀ i ∈ m.entered, ∀ s done rest, I s → program i s = done ++ rest →
      M (done.foldl apply s))
    (h : Reachable program apply state m) : M m.state ∧ (m.Free → I m.state) := by
  have hserial : ∀ order, (∀ i ∈ order, i ∈ m.entered) →
      I (serial program apply state order) := by
    intro order
    induction order using List.reverseRecOn with
    | nil => exact fun _ => hstart
    | append_singleton order i ih =>
      intro hmem
      rw [serial_concat]
      exact hsection i (hmem i (by simp)) _ (ih fun j hj => hmem j (by simp [hj]))
  cases serial_of_reachable h with
  | idle _ hstate =>
    have hall := hserial m.entered fun _ => id
    rw [hstate]
    exact ⟨hmeanwhile _ hall, fun _ => hall⟩
  | inside i before done rest hplace honly hentered hprogram hstate =>
    have hbefore := hserial before fun j hj => by simp [hentered, hj]
    rw [hstate]
    exact ⟨hcut i (by simp [hentered]) _ done rest hbefore hprogram,
      fun hfree => absurd hplace (hfree i rest)⟩

/-- A thread that waits for a free lock may run its section without a break. -/
theorem Reachable.section (h : Reachable program apply state m) (hfree : m.Free) {i : ι}
    (hplace : m.place i = .waiting) :
    Reachable program apply state ⟨runSection program apply m.state i,
      Function.update m.place i .left, m.entered ++ [i]⟩ := by
  have hacts : ∀ (actions : List A) (s : S), Reachable program apply state
      ⟨s, Function.update m.place i (.inside actions), m.entered ++ [i]⟩ →
      Reachable program apply state
        ⟨actions.foldl apply s, Function.update m.place i (.inside []), m.entered ++ [i]⟩ := by
    intro actions
    induction actions with
    | nil => exact fun _ => id
    | cons a actions ih =>
      intro s hs
      have hact := hs.tail (.act i a actions (Function.update_self ..))
      rw [Function.update_idem] at hact
      exact ih _ hact
  have henter := h.tail (.enter i hplace hfree)
  have hleave := (hacts _ _ henter).tail (.leave i (Function.update_self ..))
  rwa [Function.update_idem] at hleave

end Run

end CriticalSection

end Iperf3Rs
