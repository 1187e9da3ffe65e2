import Mathlib.Tactic.Common

/-! Programs whose effects are listed in order. A program ends normally, with an error that is
passed on, or in a panic, and what a scope drops at its end it drops in all three cases. The
triples say what a program makes of a state that its effects are applied to. -/

namespace Iperf3Rs

inductive Ending (ε α : Type*) where
  | ok (value : α)
  | error (e : ε)
  | panicked

structure Scoped (E ε α : Type*) where
  trace : List E
  ending : Ending ε α

namespace Scoped

variable {E ε S : Type} {α β : Type}

def bind (x : Scoped E ε α) (f : α → Scoped E ε β) : Scoped E ε β :=
  match x.ending with
  | .ok a => ⟨x.trace ++ (f a).trace, (f a).ending⟩
  | .error e => ⟨x.trace, .error e⟩
  | .panicked => ⟨x.trace, .panicked⟩

instance : Monad (Scoped E ε) where
  pure a := ⟨[], .ok a⟩
  bind := Scoped.bind

def emit (e : E) : Scoped E ε Unit := ⟨[e], .ok ()⟩

def emits (es : List E) : Scoped E ε Unit := ⟨es, .ok ()⟩

def fail (e : ε) : Scoped E ε α := ⟨[], .error e⟩

def panic : Scoped E ε α := ⟨[], .panicked⟩

def ofExcept : Except ε α → Scoped E ε α
  | .ok a => ⟨[], .ok a⟩
  | .error e => ⟨[], .error e⟩

/-- The end of a thread that has been joined, or of a call that may panic. -/
def ofEnd : Option (Except ε α) → Scoped E ε α
  | some result => ofExcept result
  | none => panic

/-- An error that is kept for later. A panic is not. -/
def attempt (x : Scoped E ε α) : Scoped E ε (Except ε α) :=
  match x.ending with
  | .ok a => ⟨x.trace, .ok (.ok a)⟩
  | .error e => ⟨x.trace, .ok (.error e)⟩
  | .panicked => ⟨x.trace, .panicked⟩

def scope (drops : Ending ε α → List E) (x : Scoped E ε α) : Scoped E ε α :=
  ⟨x.trace ++ drops x.ending, x.ending⟩

/-- What is dropped unless it is handed on. -/
def unwinding (drops : List E) (x : Scoped E ε α) : Scoped E ε α :=
  x.scope fun
    | .ok _ => []
    | _ => drops

/-- What is dropped unless the result takes it over. -/
def guarding (kept : α → Bool) (drops : List E) (x : Scoped E ε α) : Scoped E ε α :=
  x.scope fun
    | .ok a => if kept a then [] else drops
    | _ => drops

def mapError (f : ε → ε) (x : Scoped E ε α) : Scoped E ε α where
  trace := x.trace
  ending := match x.ending with
    | .ok a => .ok a
    | .error e => .error (f e)
    | .panicked => .panicked

/-- A program whose effects are among those of a larger one. -/
def lift {E' : Type} (f : E → E') (x : Scoped E ε α) : Scoped E' ε α := ⟨x.trace.map f, x.ending⟩

variable (apply : S → E → S)

def Triple (P : S → Prop) (x : Scoped E ε α) (Q : Ending ε α → S → Prop) : Prop :=
  ∀ s, P s → Q x.ending (x.trace.foldl apply s)

variable {apply} {P P' : S → Prop} {x : Scoped E ε α} {Q Q' : Ending ε α → S → Prop}

theorem Triple.weaken (h : Triple apply P x Q) (hpre : ∀ s, P' s → P s)
    (hpost : ∀ ending s, Q ending s → Q' ending s) : Triple apply P' x Q' :=
  fun s hs => hpost _ _ (h s (hpre s hs))

theorem triple_pure (a : α) (h : ∀ s, P s → Q (.ok a) s) :
    Triple apply P (pure a : Scoped E ε α) Q := h

theorem triple_emit {Q : Ending ε Unit → S → Prop} (e : E)
    (h : ∀ s, P s → Q (.ok ()) (apply s e)) : Triple apply P (emit e : Scoped E ε Unit) Q := h

theorem triple_emits {Q : Ending ε Unit → S → Prop} (es : List E)
    (h : ∀ s, P s → Q (.ok ()) (es.foldl apply s)) :
    Triple apply P (emits es : Scoped E ε Unit) Q := h

theorem triple_fail (e : ε) (h : ∀ s, P s → Q (.error e) s) :
    Triple apply P (fail e : Scoped E ε α) Q := h

theorem triple_panic (h : ∀ s, P s → Q .panicked s) :
    Triple apply P (panic : Scoped E ε α) Q := h

theorem triple_ofExcept (result : Except ε α) (hok : ∀ a s, result = .ok a → P s → Q (.ok a) s)
    (herror : ∀ e s, result = .error e → P s → Q (.error e) s) :
    Triple apply P (ofExcept result : Scoped E ε α) Q := by
  cases result with
  | ok a => exact fun s hs => hok a s rfl hs
  | error e => exact fun s hs => herror e s rfl hs

theorem triple_ofEnd (result : Option (Except ε α))
    (hok : ∀ a s, result = some (.ok a) → P s → Q (.ok a) s)
    (herror : ∀ e s, result = some (.error e) → P s → Q (.error e) s)
    (hpanic : ∀ s, result = none → P s → Q .panicked s) :
    Triple apply P (ofEnd result : Scoped E ε α) Q := by
  cases result with
  | none => exact fun s hs => hpanic s rfl hs
  | some result =>
    exact triple_ofExcept result (fun a s h => hok a s (by rw [h]))
      (fun e s h => herror e s (by rw [h]))

/-- What is left to be done after an ending. -/
def After (apply : S → E → S) (f : α → Scoped E ε β) (Q : Ending ε β → S → Prop) :
    Ending ε α → S → Prop
  | .ok a, s => Q (f a).ending ((f a).trace.foldl apply s)
  | .error e, s => Q (.error e) s
  | .panicked, s => Q .panicked s

theorem triple_bind {Q : Ending ε β → S → Prop} (f : α → Scoped E ε β)
    (h : Triple apply P x (After apply f Q)) : Triple apply P (x >>= f) Q := by
  intro s hs
  have hx := h s hs
  change Q (x.bind f).ending ((x.bind f).trace.foldl apply s)
  rw [Scoped.bind]
  cases hending : x.ending with
  | ok a =>
    rw [hending] at hx
    simp only [List.foldl_append]
    exact hx
  | error e =>
    rw [hending] at hx
    exact hx
  | panicked =>
    rw [hending] at hx
    exact hx

theorem triple_attempt {Q : Ending ε (Except ε α) → S → Prop}
    (h : Triple apply P x fun
      | .ok a, s => Q (.ok (.ok a)) s
      | .error e, s => Q (.ok (.error e)) s
      | .panicked, s => Q .panicked s) : Triple apply P x.attempt Q := by
  intro s hs
  have hx := h s hs
  rw [attempt]
  cases hending : x.ending <;> rw [hending] at hx <;> exact hx

theorem attempt_ne_error (x : Scoped E ε α) (e : ε) : x.attempt.ending ≠ .error e := by
  rw [attempt]
  cases x.ending <;> exact nofun

theorem triple_scope (drops : Ending ε α → List E)
    (h : Triple apply P x fun ending s => Q ending ((drops ending).foldl apply s)) :
    Triple apply P (x.scope drops) Q := by
  intro s hs
  have hx := h s hs
  simpa only [scope, List.foldl_append] using hx

theorem triple_unwinding (drops : List E)
    (h : Triple apply P x fun
      | .ok a, s => Q (.ok a) s
      | .error e, s => Q (.error e) (drops.foldl apply s)
      | .panicked, s => Q .panicked (drops.foldl apply s)) :
    Triple apply P (x.unwinding drops) Q := by
  refine triple_scope _ (h.weaken (fun _ => id) fun ending s hs => ?_)
  cases ending <;> exact hs

/-- The program leaves the state as `ok` says for its result, and otherwise as `failed`. -/
def Leaves (apply : S → E → S) (s : S) (x : Scoped E ε α) (ok : α → S) (failed : S) : Prop :=
  Triple apply (· = s) x fun
    | .ok a, s' => s' = ok a
    | _, s' => s' = failed

section Leaves

variable {s failed : S} {ok : α → S}

/-- What a program that ends normally makes of the state otherwise does not matter. -/
theorem Leaves.of_ok {q : S} {a : α} (hx : Leaves apply s x ok q) (h : x.ending = .ok a) :
    Leaves apply s x ok failed := by
  intro s' hs
  have hh := hx s' hs
  rw [h] at hh ⊢
  exact hh

theorem leaves_bind {f : α → Scoped E ε β} {ok : β → S} {mid : α → S}
    (hx : Leaves apply s x mid failed)
    (hf : ∀ a, x.ending = .ok a → Leaves apply (mid a) (f a) ok failed) :
    Leaves apply s (x >>= f) ok failed := by
  refine triple_bind f fun s' hs => ?_
  have hh := hx s' hs
  cases hending : x.ending with
  | ok a =>
    rw [hending] at hh
    exact hf a hending _ hh
  | error e =>
    rw [hending] at hh
    exact hh
  | panicked =>
    rw [hending] at hh
    exact hh

theorem leaves_pure (a : α) : Leaves apply (ok a) (pure a : Scoped E ε α) ok failed :=
  triple_pure a fun _ => id

theorem leaves_emit (e : E) :
    Leaves apply s (emit e : Scoped E ε Unit) (fun _ => apply s e) failed :=
  triple_emit e fun _ hs => by rw [hs]

theorem leaves_emits (es : List E) :
    Leaves apply s (emits es : Scoped E ε Unit) (fun _ => es.foldl apply s) failed :=
  triple_emits es fun _ hs => by rw [hs]

theorem leaves_fail (e : ε) (ok : α → S) : Leaves apply s (fail e : Scoped E ε α) ok s :=
  triple_fail e fun _ => id

theorem leaves_ofExcept (result : Except ε α) :
    Leaves apply s (ofExcept result : Scoped E ε α) (fun _ => s) s :=
  triple_ofExcept result (fun _ _ _ => id) (fun _ _ _ => id)

theorem leaves_ofEnd (result : Option (Except ε α)) :
    Leaves apply s (ofEnd result : Scoped E ε α) (fun _ => s) s :=
  triple_ofEnd result (fun _ _ _ => id) (fun _ _ _ => id) (fun _ _ => id)

theorem leaves_unwinding {q : S} {drops : List E} (hx : Leaves apply s x ok q)
    (hdrops : drops.foldl apply q = failed) : Leaves apply s (unwinding drops x) ok failed := by
  refine triple_unwinding drops (Triple.weaken hx (fun _ => id) fun ending s' hs => ?_)
  cases ending with
  | ok a => exact hs
  | error e => rw [← hdrops, hs]
  | panicked => rw [← hdrops, hs]

theorem leaves_scope {q : S} {drops : List E} (hx : Leaves apply s x (fun _ => q) q)
    (hdrops : drops.foldl apply q = failed) :
    Leaves apply s (scope (fun _ => drops) x) (fun _ => failed) failed := by
  refine triple_scope _ (Triple.weaken hx (fun _ => id) fun ending s' hs => ?_)
  obtain rfl : s' = q := by cases ending <;> exact hs
  cases ending <;> exact hdrops

theorem leaves_attempt (hx : Leaves apply s x ok failed) :
    Leaves apply s (attempt x) (fun
      | .ok a => ok a
      | .error _ => failed) failed := by
  refine triple_attempt (Triple.weaken hx (fun _ => id) fun ending s' hs => ?_)
  cases ending <;> exact hs

theorem leaves_attempt_same {q : S} (hx : Leaves apply s x (fun _ => q) q) :
    Leaves apply s (attempt x) (fun _ => q) q := by
  refine (leaves_attempt hx).weaken (fun _ => id) fun ending s' hs => ?_
  cases ending with
  | ok result => cases result <;> exact hs
  | error e => exact hs
  | panicked => exact hs

theorem leaves_guarding {q : S} {mid : α → S} {kept : α → Bool} {drops : List E}
    (hx : Leaves apply s x mid q)
    (hkept : ∀ a, kept a = true → ok a = mid a)
    (hdropped : ∀ a, kept a = false → ok a = drops.foldl apply (mid a))
    (hdrops : drops.foldl apply q = failed) : Leaves apply s (guarding kept drops x) ok failed := by
  refine triple_scope _ (Triple.weaken hx (fun _ => id) fun ending s' hs => ?_)
  cases ending with
  | error e => rw [← hdrops, hs]
  | panicked => rw [← hdrops, hs]
  | ok a =>
    by_cases hkeep : kept a = true
    · simp only [hkeep, if_true, List.foldl_nil]
      rw [hkept a hkeep, hs]
    · simp only [hkeep, Bool.false_eq_true, if_false]
      rw [hdropped a (Bool.not_eq_true _ ▸ hkeep), hs]

theorem leaves_mapError (f : ε → ε) (hx : Leaves apply s x ok failed) :
    Leaves apply s (x.mapError f) ok failed := by
  intro s' hs
  have hh := hx s' hs
  rw [mapError]
  cases hending : x.ending <;> rw [hending] at hh <;> exact hh

/-- The effects of a part are those on a part of the state. -/
theorem leaves_lift {E' S' : Type} {f : E → E'} {apply' : S' → E' → S'} (put : S → S')
    (hput : ∀ s e, apply' (put s) (f e) = put (apply s e)) (hx : Leaves apply s x ok failed) :
    Leaves apply' (put s) (x.lift f) (fun a => put (ok a)) (put failed) := by
  have hfold : ∀ (es : List E) (s : S),
      (es.map f).foldl apply' (put s) = put (es.foldl apply s) := by
    intro es
    induction es with
    | nil => exact fun _ => rfl
    | cons e es ih =>
      intro s
      rw [List.map_cons, List.foldl_cons, hput, ih, List.foldl_cons]
  rintro _ rfl
  have hh := hx s rfl
  simp only [lift, hfold]
  cases hending : x.ending <;> rw [hending] at hh <;> exact congrArg put hh

end Leaves

theorem bind_trace (x : Scoped E ε α) (f : α → Scoped E ε β) : (x >>= f).trace =
    x.trace ++ match x.ending with
      | .ok a => (f a).trace
      | _ => [] := by
  change (x.bind f).trace = _
  rw [Scoped.bind]
  cases x.ending <;> simp

theorem bind_ending (x : Scoped E ε α) (f : α → Scoped E ε β) : (x >>= f).ending =
    match x.ending with
      | .ok a => (f a).ending
      | .error e => .error e
      | .panicked => .panicked := by
  change (x.bind f).ending = _
  rw [Scoped.bind]
  cases x.ending <;> rfl

theorem ending_bind_ok {f : α → Scoped E ε β} {b : β} :
    (x >>= f).ending = .ok b ↔ ∃ a, x.ending = .ok a ∧ (f a).ending = .ok b := by
  rw [bind_ending]
  cases x.ending <;> simp

theorem ending_attempt_ok {result : Except ε α} : x.attempt.ending = .ok result ↔
    x.ending = match result with
      | .ok a => .ok a
      | .error e => .error e := by
  rw [attempt]
  cases x.ending <;> cases result <;> simp

theorem ending_ofExcept_ok {result : Except ε α} {a : α} :
    (ofExcept result : Scoped E ε α).ending = .ok a ↔ result = .ok a := by
  cases result <;> simp [ofExcept]

theorem ending_ofEnd_ok {result : Option (Except ε α)} {a : α} :
    (ofEnd result : Scoped E ε α).ending = .ok a ↔ result = some (.ok a) := by
  cases result with
  | none => simp [ofEnd, panic]
  | some result => simp [ofEnd, ending_ofExcept_ok]

theorem ending_unwinding (drops : List E) (x : Scoped E ε α) :
    (unwinding drops x).ending = x.ending := rfl

theorem ending_scope (drops : Ending ε α → List E) (x : Scoped E ε α) :
    (x.scope drops).ending = x.ending := rfl

theorem ending_guarding (kept : α → Bool) (drops : List E) (x : Scoped E ε α) :
    (guarding kept drops x).ending = x.ending := rfl

theorem ending_lift {E' : Type} (f : E → E') (x : Scoped E ε α) :
    (x.lift f).ending = x.ending := rfl

theorem ending_emit (e : E) : (emit e : Scoped E ε Unit).ending = .ok () := rfl

theorem ending_emits (es : List E) : (emits es : Scoped E ε Unit).ending = .ok () := rfl

theorem ending_fail_ne (e : ε) (a : α) : (fail e : Scoped E ε α).ending ≠ .ok a := by
  intro h
  cases h

theorem ending_mapError_ok {f : ε → ε} {a : α} :
    (x.mapError f).ending = .ok a ↔ x.ending = .ok a := by
  rw [mapError]
  cases x.ending <;> simp

theorem ending_pure_ok {a b : α} : (pure a : Scoped E ε α).ending = .ok b ↔ a = b := by
  change (Ending.ok a : Ending ε α) = .ok b ↔ a = b
  rw [Ending.ok.injEq]

/-- Every effect is one of these. -/
def Within (allowed : E → Prop) (x : Scoped E ε α) : Prop := ∀ e ∈ x.trace, allowed e

section Within

variable {allowed : E → Prop}

theorem within_bind {f : α → Scoped E ε β} (hx : x.Within allowed)
    (hf : ∀ a, x.ending = .ok a → (f a).Within allowed) : (x >>= f).Within allowed := by
  intro e he
  rw [bind_trace, List.mem_append] at he
  rcases he with he | he
  · exact hx e he
  · cases hending : x.ending with
    | ok a =>
      rw [hending] at he
      exact hf a hending e he
    | error err =>
      rw [hending] at he
      cases he
    | panicked =>
      rw [hending] at he
      cases he

theorem within_scope {drops : Ending ε α → List E} (hx : x.Within allowed)
    (hdrops : ∀ ending, ∀ e ∈ drops ending, allowed e) : (x.scope drops).Within allowed := by
  intro e he
  rcases List.mem_append.mp he with he | he
  · exact hx e he
  · exact hdrops _ e he

theorem within_unwinding {drops : List E} (hx : x.Within allowed)
    (hdrops : ∀ e ∈ drops, allowed e) : (unwinding drops x).Within allowed := by
  refine within_scope hx fun ending e he => ?_
  cases ending with
  | ok a => cases he
  | error err => exact hdrops e he
  | panicked => exact hdrops e he

theorem within_attempt (hx : x.Within allowed) : x.attempt.Within allowed := by
  intro e he
  rw [attempt] at he
  cases hending : x.ending <;> rw [hending] at he <;> exact hx e he

theorem within_emits {es : List E} (h : ∀ e ∈ es, allowed e) :
    (emits es : Scoped E ε Unit).Within allowed := h

theorem within_emit {e : E} (h : allowed e) : (emit e : Scoped E ε Unit).Within allowed := by
  intro e' he
  rwa [List.mem_singleton.mp he]

theorem within_pure (a : α) : (pure a : Scoped E ε α).Within allowed := nofun

theorem within_fail (e : ε) : (fail e : Scoped E ε α).Within allowed := nofun

theorem within_ofExcept (result : Except ε α) :
    (ofExcept result : Scoped E ε α).Within allowed := by
  cases result <;> exact nofun

theorem within_ofEnd (result : Option (Except ε α)) :
    (ofEnd result : Scoped E ε α).Within allowed := by
  cases result with
  | none => exact nofun
  | some result => exact within_ofExcept result

end Within

end Scoped

end Iperf3Rs
