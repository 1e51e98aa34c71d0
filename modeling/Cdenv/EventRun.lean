import Mathlib.Data.List.Basic

/-!
# Runs of event-driven systems

A system is its step: in a state, an event is either impossible or leads to one next
state. A run is a list of events taken from a state, so an interleaving is nothing but
the order of the events. An invariant is proved for one step and holds after every run;
where the step keeps it only under a condition, the condition is asked of every step of
the run.
-/
namespace Cdenv.EventRun
variable {σ ε : Type*} (step : σ → ε → Option σ)

/-- The state after all events, if each was possible in its turn. -/
def run : σ → List ε → Option σ
  | s, [] => some s
  | s, e::rest => (step s e).bind fun t => run t rest

/-- The condition holds of every state and event of the run. -/
def Along (P : σ → ε → Prop) : σ → List ε → Prop
  | _, [] => True
  | s, e::rest =>
    P s e ∧
      match step s e with
      | some t => Along P t rest
      | none => True

instance {P : σ → ε → Prop} [∀ s e,Decidable (P s e)] :
    (s : σ) → (events : List ε) → Decidable (Along step P s events)
  | _, [] => isTrue trivial
  | s, e::rest =>
    @instDecidableAnd _ _ inferInstance
      (match step s e with
        | some t => instDecidableAlong t rest
        | none => isTrue trivial)

variable {step} {events : List ε}

theorem run_cons {s t : σ} {e : ε} {xs : List ε} :
    run step s (e::xs) = some t ↔ ∃ u, step s e = some u ∧ run step u xs = some t :=
  Option.bind_eq_some_iff

theorem run_invariant {I : σ → Prop} (hst : ∀ s e t, I s → step s e = some t → I t) {s t : σ}
    (hs : I s) (h : run step s events = some t) : I t := by
  induction events generalizing s with
  | nil => exact Option.some.inj h ▸ hs
  | cons e xs ih =>
    obtain ⟨u,hu,hr⟩ := run_cons.mp h
    exact ih (hst s e u hs hu) hr

/-- What every step that meets the condition keeps, every such run keeps. -/
theorem run_invariant_along {I : σ → Prop} {P : σ → ε → Prop}
    (hst : ∀ s e t, I s → P s e → step s e = some t → I t) {s t : σ} (hs : I s)
    (ha : Along step P s events) (h : run step s events = some t) : I t := by
  induction events generalizing s with
  | nil => exact Option.some.inj h ▸ hs
  | cons e xs ih =>
    obtain ⟨u,hu,hr⟩ := run_cons.mp h
    obtain ⟨hc,hl⟩ := ha
    rw [hu] at hl
    exact ih (hst s e u hs hc hu) hl hr

end Cdenv.EventRun
