import Mathlib.Data.List.Basic

/-!
# Transactions as logged steps

What a transaction ensures is said of its result together with the state and the log that it
leaves, and is put together step by step. A relation between states that every operation
respects is respected by the whole transaction.
-/
namespace Cdenv.StepLog
universe u

structure Outcome (σ κ ε α : Type*) where
  result : Except ε α
  state : σ
  log : List (κ × Bool)

/-- A transaction works on a state, may fail, and leaves a log. -/
def Steps (σ κ ε α : Type*) := σ → Outcome σ κ ε α

/-- An operation of the outside: it changes the state and answers. -/
abbrev Operation (σ ε α : Type*) := σ → Except ε α × σ

/-- How a call to the outside ends. One that is lost was carried out, but the caller learns
of a failure. -/
inductive Reply where
  | done | refused | lost

namespace Reply
variable {σ ε α : Type*}

def deliver (reply : Reply) (failure : ε) (operation : Operation σ ε α) : Operation σ ε α := fun s =>
  match reply with
  | .done => operation s
  | .refused => (.error failure, s)
  | .lost => (.error failure, (operation s).2)

end Reply

def succeeded {ε α : Type*} : Except ε α → Bool
  | .ok _ => true
  | .error _ => false

namespace Steps
variable {σ κ ε ε' : Type*}

section combinators
variable {α β : Type u}

def fail (e : ε) : Steps σ κ ε α := fun s => ⟨.error e,s,[]⟩

/-- A query leaves no entry. -/
def query (operation : σ → α × σ) : Steps σ κ ε α :=
  fun s => ⟨.ok (operation s).1,(operation s).2,[]⟩

/-- An operation without a log entry, whose failure ends the transaction. -/
def call (operation : Operation σ ε' α) (failure : ε' → ε) : Steps σ κ ε α :=
  fun s => ⟨(operation s).1.mapError failure,(operation s).2,[]⟩

/-- A named step is logged with whether it succeeded, and its failure ends the transaction. -/
def attempt (step : κ) (operation : Operation σ ε' α) (failure : ε' → ε) : Steps σ κ ε α :=
  fun s => ⟨(operation s).1.mapError failure,(operation s).2,[(step, succeeded (operation s).1)]⟩

/-- An observed step is logged too, but its result is only looked at. -/
def observe (step : κ) (operation : Operation σ ε' α) : Steps σ κ ε (Except ε' α) :=
  fun s => ⟨.ok (operation s).1,(operation s).2,[(step, succeeded (operation s).1)]⟩

def andThen (m : Steps σ κ ε α) (f : α → Steps σ κ ε β) : Steps σ κ ε β := fun s =>
  match m s with
  | ⟨.ok a,t,log⟩ => ⟨(f a t).result,(f a t).state,log++(f a t).log⟩
  | ⟨.error e,t,log⟩ => ⟨.error e,t,log⟩

/-- A failure is noted and does not end the transaction. -/
def collect (m : Steps σ κ ε PUnit.{u+1}) : Steps σ κ ε' (List ε) := fun s =>
  ⟨.ok (match (m s).result with
    | .ok _ => []
    | .error e => [e]),(m s).state,(m s).log⟩

/-- On failure the handler goes on from the state that was reached. -/
def handle (m : Steps σ κ ε α) (handler : ε → Steps σ κ ε' α) : Steps σ κ ε' α := fun s =>
  match m s with
  | ⟨.ok a,t,log⟩ => ⟨.ok a,t,log⟩
  | ⟨.error e,t,log⟩ => ⟨(handler e t).result,(handler e t).state,log++(handler e t).log⟩

end combinators

instance : Monad (Steps σ κ ε) where
  pure a := fun s => ⟨.ok a,s,[]⟩
  bind := andThen

section equations
variable {α β : Type u} {m : Steps σ κ ε α} {f : α → Steps σ κ ε β}
variable {handler : ε → Steps σ κ ε' α} {op : Operation σ ε' α} {fl : ε' → ε}
variable {a : α} {b : β} {e : ε} {s t u : σ}

theorem pure_apply : (pure a : Steps σ κ ε α) s = ⟨.ok a,s,[]⟩ := rfl

theorem apply_eq {r : Except ε α} (h : (m s).result = r) : m s = ⟨r,(m s).state,(m s).log⟩ := by
  rw [← h]

theorem bind_ok (h : (m s).result = .ok a) :
    (m >>= f) s = ⟨(f a (m s).state).result,(f a (m s).state).state,
      (m s).log++(f a (m s).state).log⟩ := by
  change andThen m f s = _
  rw [andThen,apply_eq h]

theorem bind_error (h : (m s).result = .error e) :
    (m >>= f) s = ⟨.error e,(m s).state,(m s).log⟩ := by
  change andThen m f s = _
  rw [andThen,apply_eq h]

theorem handle_ok (h : (m s).result = .ok a) :
    handle m handler s = ⟨.ok a,(m s).state,(m s).log⟩ := by
  rw [handle,apply_eq h]

theorem handle_error (h : (m s).result = .error e) :
    handle m handler s = ⟨(handler e (m s).state).result,(handler e (m s).state).state,
      (m s).log++(handler e (m s).state).log⟩ := by
  rw [handle,apply_eq h]

/-- The transaction succeeds with this value and leaves this state. -/
def Yields (m : Steps σ κ ε α) (s : σ) (a : α) (t : σ) : Prop :=
  (m s).result = .ok a ∧ (m s).state = t

theorem Yields.unique {b : α} (ha : Yields m s a t) (hb : Yields m s b u) : a = b ∧ t = u := by
  obtain ⟨hr,rfl⟩ := ha
  obtain ⟨ho,rfl⟩ := hb
  rw [hr] at ho
  cases ho
  exact ⟨rfl,rfl⟩

theorem yields_pure {b : α} : Yields (pure a : Steps σ κ ε α) s b t ↔ a = b ∧ s = t := by
  unfold Yields
  rw [pure_apply,Except.ok.injEq]

theorem yields_fail : ¬Yields (fail e : Steps σ κ ε α) s a t := by
  rintro ⟨h,-⟩
  cases h

theorem yields_query {op : σ → α × σ} :
    Yields (query op : Steps σ κ ε α) s a t ↔ op s = (a, t) := by
  unfold Yields query
  rw [Except.ok.injEq,Prod.ext_iff]

theorem yields_call : Yields (call op fl : Steps σ κ ε α) s a t ↔ op s = (.ok a, t) := by
  unfold Yields call
  cases op s with
  | mk r u => cases r <;> simp [Except.mapError]

variable {step : κ}

theorem yields_attempt : Yields (attempt step op fl : Steps σ κ ε α) s a t ↔ op s = (.ok a, t) := by
  unfold Yields attempt
  cases op s with
  | mk r u => cases r <;> simp [Except.mapError]

/-- A sequence succeeds exactly when both parts do, one from where the other ends. -/
theorem yields_bind : Yields (m >>= f) s b u ↔ ∃ a t, Yields m s a t ∧ Yields (f a) t b u := by
  unfold Yields
  cases hm : (m s).result with
  | ok a =>
    rw [bind_ok hm]
    constructor
    · intro h
      exact ⟨a,_,⟨rfl,rfl⟩,h⟩
    · rintro ⟨a',t,⟨ha,rfl⟩,h⟩
      cases ha
      exact h
  | error e =>
    rw [bind_error hm]
    constructor
    · rintro ⟨h,-⟩
      cases h
    · rintro ⟨a,t,⟨ha,-⟩,-⟩
      cases ha

theorem Yields.bind_iff (hm : Yields m s a t) : Yields (m >>= f) s b u ↔ Yields (f a) t b u := by
  rw [yields_bind]
  constructor
  · rintro ⟨a',t',hm',hf⟩
    obtain ⟨rfl,rfl⟩ := hm.unique hm'
    exact hf
  · intro hf
    exact ⟨a,t,hm,hf⟩

theorem yields_query_bind {op : σ → α × σ} :
    Yields (query op >>= f) s b u ↔ Yields (f (op s).1) (op s).2 b u :=
  Yields.bind_iff ⟨rfl,rfl⟩

/-- The transaction fails with this error and leaves this state. -/
def Fails (m : Steps σ κ ε α) (s : σ) (e : ε) (t : σ) : Prop :=
  (m s).result = .error e ∧ (m s).state = t

theorem yields_handle : Yields (handle m handler) s a u ↔
      Yields m s a u ∨ ∃ e t, Fails m s e t ∧ Yields (handler e) t a u := by
  unfold Yields Fails
  cases hm : (m s).result with
  | ok a' =>
    rw [handle_ok hm]
    simp
  | error e =>
    rw [handle_error hm]
    simp

/-- A sequence fails where its first part fails, or where the second does after it. -/
theorem fails_bind :
    Fails (m >>= f) s e u ↔ Fails m s e u ∨ ∃ a t, Yields m s a t ∧ Fails (f a) t e u := by
  unfold Fails Yields
  cases hm : (m s).result with
  | ok a =>
    rw [bind_ok hm]
    constructor
    · intro h
      exact .inr ⟨a,_,⟨rfl,rfl⟩,h⟩
    · rintro (⟨h,-⟩ | ⟨a',t,⟨ha,rfl⟩,h⟩)
      · cases h
      · cases ha
        exact h
  | error e' =>
    rw [bind_error hm]
    constructor
    · rintro ⟨he,ht⟩
      cases he
      exact .inl ⟨rfl,ht⟩
    · rintro (⟨he,ht⟩ | ⟨a,t,⟨ha,-⟩,-⟩)
      · cases he
        exact ⟨rfl,ht⟩
      · cases ha

theorem fails_handle {e' : ε'} (hm : Fails m s e t) (hh : Fails (handler e) t e' u) :
    Fails (handle m handler) s e' u := by
  obtain ⟨hr,rfl⟩ := hm
  unfold Fails
  rw [handle_error hr]
  exact hh

end equations

section ensures
variable {α β : Type u} {I : α → σ → List (κ × Bool) → Prop} {J : β → σ → List (κ × Bool) → Prop}
variable {F : ε → σ → List (κ × Bool) → Prop} {m : Steps σ κ ε α} {f : α → Steps σ κ ε β}
variable {op : Operation σ ε' α} {fl : ε' → ε} {s : σ} {log : List (κ × Bool)}

/-- With this log before it, the transaction succeeds as the first says or fails as the second
says. -/
def Ensures (I : α → σ → List (κ × Bool) → Prop) (F : ε → σ → List (κ × Bool) → Prop)
    (m : Steps σ κ ε α) (s : σ) (log : List (κ × Bool)) : Prop :=
  match (m s).result with
  | .ok a => I a (m s).state (log++(m s).log)
  | .error e => F e (m s).state (log++(m s).log)

theorem ensures_pure {a : α} (h : I a s log) : Ensures I F (pure a) s log := by
  unfold Ensures
  rw [pure_apply]
  rwa [List.append_nil]

theorem ensures_fail {e : ε} (h : F e s log) : Ensures I F (fail e) s log := by
  unfold Ensures fail
  rwa [List.append_nil]

theorem ensures_query {op : σ → α × σ} (h : I (op s).1 (op s).2 log) :
    Ensures I F (query op) s log := by
  unfold Ensures query
  rwa [List.append_nil]

theorem ensures_observe {I : Except ε' α → σ → List (κ × Bool) → Prop}
    (h : I (op s).1 (op s).2 (log++[(step, succeeded (op s).1)])) :
    Ensures I F (observe step op) s log := h

theorem ensures_call (he : ∀ e, (op s).1 = .error e → F (fl e) (op s).2 log)
    (hok : ∀ a, (op s).1 = .ok a → I a (op s).2 log) :
    Ensures I F (call op fl) s log := by
  unfold Ensures call
  rw [List.append_nil]
  cases hr : (op s).1 with
  | ok a => exact hok a hr
  | error e => exact he e hr

theorem ensures_attempt (he : ∀ e, (op s).1 = .error e → F (fl e) (op s).2 (log++[(step, false)]))
    (hok : ∀ a, (op s).1 = .ok a → I a (op s).2 (log++[(step, true)])) :
    Ensures I F (attempt step op fl) s log := by
  unfold Ensures attempt
  cases hr : (op s).1 with
  | ok a => exact hok a hr
  | error e => exact he e hr

theorem ensures_bind : Ensures J F (m >>= f) s log ↔
    Ensures (fun a t log => Ensures J F (f a) t log) F m s log := by
  unfold Ensures
  cases hm : (m s).result with
  | ok a =>
    rw [bind_ok hm]
    dsimp only
    rw [List.append_assoc]
  | error e => rw [bind_error hm]

theorem Ensures.mono {I' : α → σ → List (κ × Bool) → Prop} {F' : ε → σ → List (κ × Bool) → Prop}
    (h : Ensures I F m s log) (hI : ∀ a t log, Yields m s a t → I a t log → I' a t log)
    (hF : ∀ e t log, F e t log → F' e t log) : Ensures I' F' m s log := by
  unfold Ensures at h ⊢
  cases hm : (m s).result with
  | ok a =>
    rw [hm] at h
    exact hI a _ _ ⟨hm,rfl⟩ h
  | error e =>
    rw [hm] at h
    exact hF e _ _ h

theorem Ensures.handle {E : ε' → σ → List (κ × Bool) → Prop} {m : Steps σ κ ε' α}
    {handler : ε' → Steps σ κ ε α} (h : Ensures I E m s log)
    (hh : ∀ e t log, E e t log → Ensures I F (handler e) t log) :
    Ensures I F (m.handle handler) s log := by
  unfold Ensures at h ⊢
  cases hm : (m s).result with
  | ok a =>
    rw [hm] at h
    rw [handle_ok hm]
    exact h
  | error e =>
    rw [hm] at h
    rw [handle_error hm]
    rw [← List.append_assoc]
    exact hh e _ _ h

/-- A transaction that ensures nothing of a success fails. -/
theorem Ensures.fails (h : Ensures (fun _ _ _ => False) F m s log) :
    ∃ e t log', Fails m s e t ∧ F e t log' := by
  unfold Ensures at h
  cases hm : (m s).result with
  | ok a =>
    rw [hm] at h
    exact h.elim
  | error e =>
    rw [hm] at h
    exact ⟨e,_,_,⟨hm,rfl⟩,h⟩

end ensures

section invariants
variable {α β : Type u}

/-- Every state that is reached stands in this relation to the one before. -/
def Respects (R : σ → σ → Prop) (m : Steps σ κ ε α) : Prop := ∀ s, R s (m s).state

variable {R : σ → σ → Prop} {m : Steps σ κ ε α} {f : α → Steps σ κ ε β}

theorem Respects.bind (ht : ∀ s t u, R s t → R t u → R s u) (hm : Respects R m)
    (hf : ∀ a, Respects R (f a)) : Respects R (m >>= f) := by
  intro s
  cases hr : (m s).result with
  | ok a =>
    rw [bind_ok hr]
    exact ht _ _ _ (hm s) (hf a _)
  | error e =>
    rw [bind_error hr]
    exact hm s

theorem Respects.ensures (h : Respects R m) (s : σ) (log : List (κ × Bool)) :
    Ensures (fun _ t _ => R s t) (fun _ t _ => R s t) m s log := by
  unfold Ensures
  cases (m s).result with
  | ok a | error e => exact h s

/-- Calls and queries leave no entry. -/
def Silent (m : Steps σ κ ε α) : Prop := ∀ s, (m s).log = []

theorem Silent.bind (hm : Silent m) (hf : ∀ a, Silent (f a)) : Silent (m >>= f) := by
  intro s
  cases hr : (m s).result with
  | ok a =>
    rw [bind_ok hr]
    rw [hm s,hf a,List.append_nil]
  | error e =>
    rw [bind_error hr]
    exact hm s

end invariants

end Steps
end Cdenv.StepLog
