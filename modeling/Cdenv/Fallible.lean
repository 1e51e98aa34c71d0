import Mathlib.Algebra.Ring.Nat
import Mathlib.Data.List.Forall2

/-!
# Computations that may fail

Inversion rules for `Except`. A successful computation is taken apart bind by
bind, and each check it passed becomes a hypothesis; no proof has to unfold the
monad.
-/
namespace Cdenv.Fallible
open List
universe u v
variable {ε ε' : Type u} {α β : Type v} {x : Except ε α}

theorem bind_eq_ok {f : α → Except ε β} {r : β} :
    (x >>= f) = .ok r ↔ ∃ a, x = .ok a ∧ f a = .ok r := by
  cases x with
  | error e =>
    constructor
    · exact nofun
    · rintro ⟨a,h,-⟩
      cases h
  | ok a =>
    constructor
    · intro h
      exact ⟨a,rfl,h⟩
    · rintro ⟨b,h,hf⟩
      cases h
      exact hf

theorem pure_eq_ok {a b : α} : (pure a : Except ε α) = .ok b ↔ a = b :=
  ⟨fun h => Except.ok.inj h,fun h => h ▸ rfl⟩

theorem map_eq_ok {f : α → β} {r : β} : f <$> x = .ok r ↔ ∃ a, x = .ok a ∧ f a = r := by
  rw [map_eq_pure_bind,bind_eq_ok]
  simp only [pure_eq_ok]

theorem mapError_eq_ok {f : ε → ε'} {r : α} : x.mapError f = .ok r ↔ x = .ok r := by
  cases x <;> simp [Except.mapError]

def require (accepted : Bool) (failure : ε) : Except ε Unit :=
  if accepted then .ok () else .error failure

@[simp] theorem require_eq_ok {accepted : Bool} {e : ε} {r : Unit} :
    require accepted e = .ok r ↔ accepted = true := by
  cases accepted <;> simp [require]

def orFail (x : Option α) (failure : ε) : Except ε α :=
  match x with
  | some a => .ok a
  | none => .error failure

@[simp] theorem orFail_eq_ok {x : Option α} {e : ε} {r : α} : orFail x e = .ok r ↔ x = some r := by
  cases x <;> simp [orFail]

variable {l : List α}

theorem forM_eq_ok {f : α → Except ε PUnit} {r : PUnit} :
    l.forM f = .ok r ↔ ∀ a ∈ l, f a = .ok ⟨⟩ := by
  induction l with
  | nil => simp [List.forM,pure,Except.pure]
  | cons a l ih =>
    change (f a >>= fun _ => l.forM f) = .ok r ↔ _
    rw [bind_eq_ok,forall_mem_cons,← ih]
    constructor
    · rintro ⟨⟨⟩,ha,hl⟩
      exact ⟨ha,hl⟩
    · rintro ⟨ha,hl⟩
      exact ⟨⟨⟩,ha,hl⟩

theorem mapM_eq_ok {f : α → Except ε β} {r : List β} :
    l.mapM f = .ok r ↔ List.Forall₂ (fun a b => f a = .ok b) l r := by
  induction l generalizing r with
  | nil =>
    simp only [mapM_nil,pure_eq_ok,forall₂_nil_left_iff]
    exact eq_comm
  | cons a l ih =>
    simp only [mapM_cons,bind_eq_ok,pure_eq_ok,forall₂_cons_left_iff]
    constructor
    · rintro ⟨b,hb,bs,hbs,rfl⟩
      exact ⟨b,bs,hb,ih.mp hbs,rfl⟩
    · rintro ⟨b,bs,hb,hbs,rfl⟩
      exact ⟨b,hb,bs,ih.mpr hbs,rfl⟩

theorem mapM_congr {f g : α → Except ε β} (h : ∀ a ∈ l, f a = g a) : l.mapM f = l.mapM g := by
  induction l with
  | nil => rfl
  | cons a l ih =>
    rw [mapM_cons,mapM_cons,h a mem_cons_self,ih (forall_mem_cons.mp h).2]

variable {f : α → Option β}

theorem mapM_eq_some {r : List β} :
    l.mapM f = some r ↔ List.Forall₂ (fun a b => f a = some b) l r := by
  induction l generalizing r with
  | nil =>
    simp only [mapM_nil,Option.pure_def,Option.some.injEq,forall₂_nil_left_iff]
    exact eq_comm
  | cons a l ih =>
    simp only [mapM_cons,Option.bind_eq_bind,Option.bind_eq_some_iff,Option.pure_def,
      Option.some.injEq,forall₂_cons_left_iff]
    constructor
    · rintro ⟨b,hb,bs,hbs,rfl⟩
      exact ⟨b,bs,hb,ih.mp hbs,rfl⟩
    · rintro ⟨b,bs,hb,hbs,rfl⟩
      exact ⟨b,hb,bs,ih.mpr hbs,rfl⟩

variable {R : α → β → Prop} {b : β}

theorem forall₂_mem_right {m : List β} (h : List.Forall₂ R l m) (hb : b ∈ m) : ∃ a ∈ l, R a b := by
  induction h with
  | nil => simp at hb
  | cons hab hre ih =>
    rcases mem_cons.mp hb with rfl | hb
    · exact ⟨_,mem_cons_self,hab⟩
    · obtain ⟨a,ha,hr⟩ := ih hb
      exact ⟨a,mem_cons_of_mem _ ha,hr⟩

theorem forall₂_mem_left {m : List β} {a : α} (h : List.Forall₂ R l m) (ha : a ∈ l) :
    ∃ b ∈ m, R a b :=
  forall₂_mem_right h.flip ha

/-- A traversal that can read every element reads the list. -/
theorem exists_mapM_eq_some (h : ∀ a ∈ l, ∃ b, f a = some b) : ∃ r, l.mapM f = some r := by
  induction l with
  | nil => exact ⟨[],rfl⟩
  | cons a l ih =>
    obtain ⟨b,hb⟩ := h a mem_cons_self
    obtain ⟨r,hr⟩ := ih fun a' ha' => h a' (mem_cons_of_mem _ ha')
    exact ⟨b::r,mapM_eq_some.mpr (.cons hb (mapM_eq_some.mp hr))⟩

theorem mapM_map_eq_some_map {γ : Type v} {l : List γ} {g : γ → α} {g' : γ → β} :
    (l.map g).mapM f = some (l.map g') ↔ ∀ c ∈ l, f (g c) = some (g' c) := by
  rw [mapM_eq_some,forall₂_map_left_iff,forall₂_map_right_iff]
  exact forall₂_same

theorem mapM_eq_self {f : α → Option α} : l.mapM f = some l ↔ ∀ a ∈ l, f a = some a :=
  mapM_eq_some.trans forall₂_same

variable {f : β → α → Except ε β}

/-- What one accepted element preserves, a successful fold preserves. -/
theorem foldlM_invariant {I : β → Prop} {r : β}
    (step : ∀ a ∈ l, ∀ b b', I b → f b a = .ok b' → I b') (hb : I b) (h : l.foldlM f b = .ok r) :
    I r := by
  induction l generalizing b with
  | nil => exact pure_eq_ok.mp h ▸ hb
  | cons a l ih =>
    obtain ⟨b',hs,hr⟩ := bind_eq_ok.mp h
    exact ih (fun a' ha' => step a' (mem_cons_of_mem _ ha')) (step a mem_cons_self b b' hb hs) hr

/-- What every accepted element does to one part of the state, a successful fold does by a
plain fold over that part. -/
theorem foldlM_project {γ : Type*} {p : β → γ} {g : γ → α → γ} {r : β}
    (step : ∀ b a b', f b a = .ok b' → p b' = g (p b) a) (h : l.foldlM f b = .ok r) :
    p r = l.foldl g (p b) := by
  induction l generalizing b with
  | nil => rw [pure_eq_ok.mp h,foldl_nil]
  | cons a l ih =>
    obtain ⟨b',hs,hr⟩ := bind_eq_ok.mp h
    rw [foldl_cons,← step b a b' hs]
    exact ih hr

theorem foldlM_accepts {Q : α → Prop} {r : β} (step : ∀ b a b', f b a = .ok b' → Q a)
    (h : l.foldlM f b = .ok r) : ∀ a ∈ l, Q a := by
  induction l generalizing b with
  | nil => exact fun a ha => absurd ha not_mem_nil
  | cons a l ih =>
    obtain ⟨b',hs,hr⟩ := bind_eq_ok.mp h
    rw [forall_mem_cons]
    exact ⟨step b a b' hs,ih hr⟩

/-- A check of the outcome, by evaluation, yields the outcome. -/
theorem exists_some_and {x : Option α} {P Q : α → Prop} [DecidablePred P]
    (h : x.any (fun a => decide (P a)) = true) (hQ : ∀ a, x = some a → P a → Q a) :
    ∃ a, x = some a ∧ Q a := by
  obtain ⟨a,hx,ha⟩ := (Option.any_eq_true _ _).mp h
  exact ⟨a,hx,hQ a hx (of_decide_eq_true ha)⟩

theorem toOption_eq_some {a : α} : x.toOption = some a ↔ x = .ok a := by
  cases x <;> simp [Except.toOption]

theorem exists_ok_and {P Q : α → Prop} [DecidablePred P]
    (h : x.toOption.any (fun a => decide (P a)) = true) (hQ : ∀ a, x = .ok a → P a → Q a) :
    ∃ a, x = .ok a ∧ Q a := by
  cases x with
  | error e => cases h
  | ok a => exact ⟨a,rfl,hQ a rfl (of_decide_eq_true h)⟩

/-- Every failure of the computation is of this kind. -/
def Fails (E : ε → Prop) (x : Except ε α) : Prop := ∀ e, x = .error e → E e

section
variable {E : ε → Prop}

theorem Fails.ok (a : α) : Fails E (.ok a : Except ε α) := nofun

theorem Fails.bind {f : α → Except ε β} (hx : Fails E x) (hf : ∀ a, x = .ok a → Fails E (f a)) :
    Fails E (x >>= f) := by
  intro e he
  cases x with
  | error e' =>
    cases he
    exact hx e rfl
  | ok a => exact hf a rfl e he

theorem Fails.require {accepted : Bool} {e : ε} (he : E e) : Fails E (require accepted e) := by
  intro e' h
  cases accepted with
  | true => cases h
  | false =>
    cases h
    exact he

theorem Fails.orFail {x : Option α} {e : ε} (he : E e) : Fails E (orFail x e) := by
  intro e' h
  cases x with
  | some a => cases h
  | none =>
    cases h
    exact he

theorem Fails.mapError {x : Except ε' α} {f : ε' → ε} (hf : ∀ e, E (f e)) :
    Fails E (x.mapError f) := by
  intro e h
  cases x with
  | ok a => cases h
  | error e' =>
    cases h
    exact hf e'

theorem Fails.map {f : α → β} (hx : Fails E x) : Fails E (x.map f) := by
  intro e h
  cases x with
  | ok a => cases h
  | error e' =>
    cases h
    exact hx e rfl

theorem Fails.foldlM (step : ∀ b a, Fails E (f b a)) : Fails E (l.foldlM f b) := by
  induction l generalizing b with
  | nil => exact .ok b
  | cons a l ih =>
    rw [foldlM_cons]
    exact (step b a).bind fun b' _ => ih

end

end Cdenv.Fallible
