import Mathlib.Data.Nat.Notation

/-!
# Loops with a decreasing measure

Running a loop whose measure decreases is total and executable without a fuel argument at the use
site; the iteration bound is the measure of the entry state. Proofs about a loop use the unfolding
equation, the invariant rule or the induction rule, and never the bounded iteration behind them.
-/
namespace Cdenv

/-- A `while` loop: a step which either continues with a new state or leaves with a result, and a
natural measure that every continuing step decreases. -/
structure Loop (σ ρ : Type*) where
  step : σ → σ ⊕ ρ
  measure : σ → ℕ
  decreases : ∀ {s t}, step s = .inl t → measure t < measure s

namespace Loop
variable {σ ρ : Type*}

def iterate (step : σ → σ ⊕ ρ) : ℕ → σ → Option ρ
  | 0, _ => none
  | n+1, s =>
    match step s with
    | .inr r => some r
    | .inl t => iterate step n t

theorem iterate_isSome (L : Loop σ ρ) (n : ℕ) (s : σ) (h : L.measure s < n) :
    (iterate L.step n s).isSome := by
  induction n generalizing s with
  | zero => omega
  | succ n ih =>
    unfold iterate
    cases hs : L.step s with
    | inr r => rfl
    | inl t => exact ih t (by have := L.decreases hs; omega)

variable {s : σ}

theorem iterate_mono (step : σ → σ ⊕ ρ) {n m : ℕ} {r : ρ} (hnm : n ≤ m)
    (h : iterate step n s = some r) : iterate step m s = some r := by
  induction n generalizing m s with
  | zero => simp [iterate] at h
  | succ n ih =>
    obtain ⟨m,rfl⟩ : ∃ k, m = k+1 := ⟨m-1,by omega⟩
    unfold iterate at h ⊢
    cases hs : step s with
    | inr q => simpa [hs] using h
    | inl t =>
      simp only [hs] at h
      exact ih (by omega) h

def run (L : Loop σ ρ) (s : σ) : ρ :=
  (iterate L.step (L.measure s+1) s).get (L.iterate_isSome _ s (Nat.lt_succ_self _))

theorem run_of_iterate (L : Loop σ ρ) {n : ℕ} {r : ρ} (h : iterate L.step n s = some r) :
    L.run s = r := by
  have hs := L.iterate_isSome (L.measure s+1) s (Nat.lt_succ_self _)
  obtain ⟨q,hq⟩ := Option.isSome_iff_exists.mp hs
  have h₁ := iterate_mono L.step (Nat.le_max_left n (L.measure s+1)) h
  have h₂ := iterate_mono L.step (Nat.le_max_right n (L.measure s+1)) hq
  simp only [run,hq,Option.get_some]
  exact Option.some.inj (h₂.symm.trans h₁)

theorem run_done (L : Loop σ ρ) {r : ρ} (h : L.step s = .inr r) : L.run s = r :=
  L.run_of_iterate (n := 1) (by simp [iterate,h])

theorem run_next (L : Loop σ ρ) {t : σ} (h : L.step s = .inl t) : L.run s = L.run t := by
  obtain ⟨q,hq⟩ := Option.isSome_iff_exists.mp
    (L.iterate_isSome (L.measure t+1) t (Nat.lt_succ_self _))
  rw [L.run_of_iterate hq]
  exact L.run_of_iterate (n := L.measure t+2) (by unfold iterate; simp only [h]; exact hq)

/-- Induction along the executed steps, from the exit back to the entry. -/
theorem run_induction (L : Loop σ ρ) {P : σ → ρ → Prop} (done : ∀ s r, L.step s = .inr r → P s r)
    (next : ∀ s t, L.step s = .inl t → P t (L.run t) → P s (L.run t)) (s : σ) :
    P s (L.run s) := by
  generalize hn : L.measure s = n
  induction n using Nat.strongRecOn generalizing s with
  | _ n ih =>
    cases hs : L.step s with
    | inr r =>
      rw [L.run_done hs]
      exact done s r hs
    | inl t =>
      rw [L.run_next hs]
      exact next s t hs (ih _ (hn ▸ L.decreases hs) t rfl)

theorem run_invariant (L : Loop σ ρ) {I : σ → Prop} {Q : ρ → Prop}
    (next : ∀ s t, I s → L.step s = .inl t → I t) (done : ∀ s r, I s → L.step s = .inr r → Q r)
    (h : I s) : Q (L.run s) :=
  L.run_induction (P := fun s r => I s → Q r) (fun s r hr hs => done s r hs hr)
    (fun s t ht ih hs => ih (next s t hs ht)) s h

/-- The states after each number of continuing steps. -/
inductive Steps (step : σ → σ ⊕ ρ) (s : σ) : ℕ → σ → Prop
  | start : Steps step s 0 s
  | next {n : ℕ} {t u : σ} (h : Steps step s n t) (hstep : step t = .inl u) : Steps step s (n+1) u

/-- A loop comes to a state at which it leaves. -/
theorem exists_last (L : Loop σ ρ) (s : σ) :
    ∃ n t, Steps L.step s n t ∧ L.step t = .inr (L.run s) := by
  refine L.run_induction (P := fun t r => ∀ n, Steps L.step s n t →
    ∃ m u, Steps L.step s m u ∧ L.step u = .inr r) ?_ ?_ s 0 .start
  · intro t r ht n hn
    exact ⟨n,t,hn,ht⟩
  · intro t u htu ih n hn
    exact ih (n+1) (hn.next htu)

/-- Two loops that agree on the states the first one meets have one result. -/
theorem run_congr (L M : Loop σ ρ) {I : σ → Prop} (next : ∀ s t, I s → L.step s = .inl t → I t)
    (same : ∀ s, I s → L.step s = M.step s) (h : I s) : L.run s = M.run s := by
  refine L.run_induction (P := fun s r => I s → r = M.run s) ?_ ?_ s h
  · intro s r hr hs
    rw [M.run_done ((same s hs).symm.trans hr)]
  · intro s t ht ih hs
    rw [M.run_next ((same s hs).symm.trans ht)]
    exact ih (next s t hs ht)

end Loop
end Cdenv
