import Mathlib.Data.List.Basic

/-! Loops that wait for an input and react to it. An iteration goes on, leaves the loop or
returns an error at once. The inputs a run meets are a list, so a run is a recursion on it. -/

namespace Iperf3Rs

inductive Flow (ε σ : Type*) where
  | next (s : σ)
  | stop (s : σ)
  | fail (e : ε) (s : σ)

inductive LoopRun (ε σ : Type*) where
  | running (s : σ)
  | returned (result : Except ε Unit) (s : σ)

variable {ι ε σ : Type*}

/-- `finish` runs after the loop is left, on the input of the iteration that left it. -/
def runLoop (body : ι → σ → Flow ε σ) (finish : ι → σ → σ) : List ι → σ → LoopRun ε σ
  | [], s => .running s
  | i :: is, s =>
    match body i s with
    | .next s' => runLoop body finish is s'
    | .stop s' => .returned (.ok ()) (finish i s')
    | .fail e s' => .returned (.error e) s'

/-- The invariant rule: what holds initially and is kept by every iteration that goes on
holds where the loop is left. -/
theorem runLoop_returned {body : ι → σ → Flow ε σ} {finish : ι → σ → σ} {I : σ → Prop}
    {inputs : List ι} {s t : σ} {result : Except ε Unit} (hs : I s)
    (hnext : ∀ i ∈ inputs, ∀ s s', I s → body i s = .next s' → I s')
    (h : runLoop body finish inputs s = .returned result t) :
    ∃ i ∈ inputs, ∃ s', I s' ∧
      ((∃ s'', body i s' = .stop s'' ∧ result = .ok () ∧ t = finish i s'') ∨
        (∃ e, body i s' = .fail e t ∧ result = .error e)) := by
  induction inputs generalizing s with
  | nil => simp [runLoop] at h
  | cons i is ih =>
    cases hb : body i s with
    | next s' =>
      simp only [runLoop, hb] at h
      obtain ⟨j, hj, hh⟩ := ih (hnext i (by simp) s s' hs hb)
        (fun j hj => hnext j (List.mem_cons_of_mem _ hj)) h
      exact ⟨j, List.mem_cons_of_mem _ hj, hh⟩
    | stop s' =>
      simp only [runLoop, hb, LoopRun.returned.injEq] at h
      exact ⟨i, by simp, s, hs, .inl ⟨s', hb, h.1.symm, h.2.symm⟩⟩
    | fail e s' =>
      simp only [runLoop, hb, LoopRun.returned.injEq] at h
      obtain ⟨rfl, rfl⟩ := h
      exact ⟨i, by simp, s, hs, .inr ⟨e, hb, rfl⟩⟩

theorem runLoop_append {body : ι → σ → Flow ε σ} {finish : ι → σ → σ} {before : List ι} {s t : σ}
    (h : runLoop body finish before s = .running t) (later : List ι) :
    runLoop body finish (before ++ later) s = runLoop body finish later t := by
  induction before generalizing s with
  | nil =>
    cases h
    rfl
  | cons i is ih =>
    simp only [runLoop] at h
    rw [List.cons_append, runLoop]
    cases hb : body i s with
    | next s' =>
      rw [hb] at h
      exact ih h
    | stop s' =>
      rw [hb] at h
      cases h
    | fail e s' =>
      rw [hb] at h
      cases h

theorem runLoop_concat_running {body : ι → σ → Flow ε σ} {finish : ι → σ → σ} {before : List ι}
    {i : ι} {s t : σ} (h : runLoop body finish (before ++ [i]) s = .running t) :
    ∃ s', runLoop body finish before s = .running s' ∧ body i s' = .next t := by
  induction before generalizing s with
  | nil =>
    rw [List.nil_append] at h
    refine ⟨s, rfl, ?_⟩
    cases hb : body i s with
    | next s' =>
      simp only [runLoop, hb, LoopRun.running.injEq] at h
      rw [h]
    | stop s' => simp [runLoop, hb] at h
    | fail e s' => simp [runLoop, hb] at h
  | cons j is ih =>
    cases hb : body j s with
    | next s' =>
      simp only [List.cons_append, runLoop, hb] at h ⊢
      exact ih h
    | stop s' => simp [runLoop, hb] at h
    | fail e s' => simp [runLoop, hb] at h

/-- A measure that every iteration decreases bounds the inputs a run can use up. -/
theorem runLoop_returns {body : ι → σ → Flow ε σ} (finish : ι → σ → σ) (size : σ → ℕ)
    {inputs : List ι} (hsize : ∀ i ∈ inputs, ∀ s s', body i s = .next s' → size s' < size s)
    {s : σ} (h : size s < inputs.length) :
    ∃ result t, runLoop body finish inputs s = .returned result t := by
  induction inputs generalizing s with
  | nil => simp at h
  | cons i is ih =>
    cases hb : body i s with
    | next s' =>
      have hlt := hsize i (by simp) s s' hb
      simp only [runLoop, hb]
      exact ih (fun j hj => hsize j (List.mem_cons_of_mem _ hj))
        (by simp only [List.length_cons] at h; omega)
    | stop s' => exact ⟨.ok (), finish i s', by simp only [runLoop, hb]⟩
    | fail e s' => exact ⟨.error e, s', by simp only [runLoop, hb]⟩

def LoopRun.state : LoopRun ε σ → σ
  | .running s | .returned _ s => s

def LoopRun.result : LoopRun ε σ → Option (Except ε Unit)
  | .running _ => none
  | .returned result _ => some result

inductive Flow.Rel {τ : Type*} (R : σ → τ → Prop) : Flow ε σ → Flow ε τ → Prop
  | next {s : σ} {t : τ} (h : R s t) : Rel R (.next s) (.next t)
  | stop {s : σ} {t : τ} (h : R s t) : Rel R (.stop s) (.stop t)
  | fail {s : σ} {t : τ} (e : ε) (h : R s t) : Rel R (.fail e s) (.fail e t)

/-- The simulation rule: two loops whose iterations go the same way on related states have the
same result, and end in related states. -/
theorem runLoop_rel {τ : Type*} {R : σ → τ → Prop} {body : ι → σ → Flow ε σ}
    {body' : ι → τ → Flow ε τ} {finish : ι → σ → σ} {finish' : ι → τ → τ} {inputs : List ι}
    (hbody : ∀ i ∈ inputs, ∀ s t, R s t → Flow.Rel R (body i s) (body' i t))
    (hfinish : ∀ i ∈ inputs, ∀ s t, R s t → R (finish i s) (finish' i t)) {s : σ} {t : τ}
    (h : R s t) :
    (runLoop body finish inputs s).result = (runLoop body' finish' inputs t).result ∧
      R (runLoop body finish inputs s).state (runLoop body' finish' inputs t).state := by
  induction inputs generalizing s t with
  | nil => exact ⟨rfl, h⟩
  | cons i is ih =>
    have hrel := hbody i List.mem_cons_self s t h
    cases hb : body i s <;> cases hb' : body' i t <;> rw [hb, hb'] at hrel <;> cases hrel
    · next hnext =>
      simp only [runLoop, hb, hb']
      exact ih (fun j hj => hbody j (List.mem_cons_of_mem _ hj))
        (fun j hj => hfinish j (List.mem_cons_of_mem _ hj)) hnext
    · next hstop =>
      simp only [runLoop, hb, hb']
      exact ⟨rfl, hfinish i List.mem_cons_self _ _ hstop⟩
    · next hfail =>
      simp only [runLoop, hb, hb']
      exact ⟨rfl, hfail⟩

def Flow.state : Flow ε σ → σ
  | .next s | .stop s | .fail _ s => s

theorem runLoop_extends (le : σ → σ → Prop) (hrefl : ∀ s, le s s)
    (htrans : ∀ s t u, le s t → le t u → le s u) {body : ι → σ → Flow ε σ}
    {finish : ι → σ → σ} {inputs : List ι} (hbody : ∀ i ∈ inputs, ∀ s, le s (body i s).state)
    (hfinish : ∀ i ∈ inputs, ∀ s, le s (finish i s)) (s : σ) :
    le s (runLoop body finish inputs s).state := by
  induction inputs generalizing s with
  | nil => exact hrefl s
  | cons i is ih =>
    have hstep := hbody i List.mem_cons_self s
    cases hb : body i s with
    | next s' =>
      simp only [runLoop, hb]
      rw [hb] at hstep
      exact htrans _ _ _ hstep (ih (fun j hj => hbody j (List.mem_cons_of_mem _ hj))
        (fun j hj => hfinish j (List.mem_cons_of_mem _ hj)) s')
    | stop s' =>
      simp only [runLoop, hb]
      rw [hb] at hstep
      exact htrans _ _ _ hstep (hfinish i List.mem_cons_self s')
    | fail e s' =>
      simp only [runLoop, hb]
      rwa [hb] at hstep

/-- The iterations that go on by their input alone come first, and the loop stands at the first
that does not. -/
theorem runLoop_takeWhile (body : ι → σ → Flow ε σ) (finish : ι → σ → σ) (go : ι → Bool)
    (step : σ → ι → σ) (I : σ → Prop)
    (hnext : ∀ i s, I s → go i = true → body i s = .next (step s i) ∧ I (step s i))
    (inputs : List ι) {s : σ} (hs : I s) :
    I ((inputs.takeWhile go).foldl step s) ∧
      runLoop body finish inputs s =
        runLoop body finish (inputs.dropWhile go) ((inputs.takeWhile go).foldl step s) := by
  induction inputs generalizing s with
  | nil => exact ⟨hs, rfl⟩
  | cons i is ih =>
    by_cases hgo : go i = true
    · have hi := hnext i s hs hgo
      rw [List.takeWhile_cons_of_pos hgo, List.dropWhile_cons_of_pos hgo, List.foldl_cons]
      have hh := ih hi.2
      refine ⟨hh.1, ?_⟩
      rw [← hh.2]
      simp only [runLoop, hi.1]
    · rw [List.takeWhile_cons_of_neg hgo, List.dropWhile_cons_of_neg hgo]
      exact ⟨hs, rfl⟩

end Iperf3Rs
