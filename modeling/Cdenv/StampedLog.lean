import Mathlib.Data.List.Chain

/-!
# Logs of stamped values

A log lists the versions of something in the order in which they were in force. Each
version has a value and a stamp. If every next version either keeps the value under the
same stamp or a later one, or changes the value under a strictly later stamp, then two
versions with equal stamps have the same value, and so have all versions between them.
Comparing two stamps therefore rules out a change in between that was undone.
-/
namespace Cdenv.StampedLog
variable {V A S : Type*} [PartialOrder S] (value : V → A) (stamp : V → S)

/-- The stamp does not go back, and stands still only while the value does. -/
def Follows (a b : V) : Prop := stamp a ≤ stamp b ∧ (stamp a = stamp b → value a = value b)

variable {stamp} {v : V → A}

theorem Follows.trans {a b c : V} (h₁ : Follows v stamp a b) (h₂ : Follows v stamp b c) :
    Follows v stamp a c := by
  refine ⟨h₁.1.trans h₂.1,fun he => ?_⟩
  have hab := le_antisymm h₁.1 (he ▸ h₂.1)
  have hbc := hab.symm.trans he
  exact (h₁.2 hab).trans (h₂.2 hbc)

variable {log : List V}

section

variable (h : log.IsChain (Follows v stamp))
include h

theorem follows_of_le {i j : ℕ} {a b : V} (hij : i ≤ j) (ha : log[i]? = some a)
    (hb : log[j]? = some b) : stamp a ≤ stamp b ∧ (stamp a = stamp b → v a = v b) := by
  rcases hij.lt_or_eq with hlt | rfl
  · have ht : Trans (Follows v stamp) (Follows v stamp) (Follows v stamp) := ⟨Follows.trans⟩
    obtain ⟨hi,rfl⟩ := List.getElem?_eq_some_iff.mp ha
    obtain ⟨hj,rfl⟩ := List.getElem?_eq_some_iff.mp hb
    exact List.pairwise_iff_getElem.mp h.pairwise i j hi hj hlt
  · cases ha.symm.trans hb
    exact ⟨le_rfl,fun _ => rfl⟩

/-- Between two versions with equal stamps the value is one. -/
theorem value_eq_between {i j k : ℕ} {a b c : V} (hik : i ≤ k) (hkj : k ≤ j) (ha : log[i]? = some a)
    (hb : log[j]? = some b) (hc : log[k]? = some c) (he : stamp a = stamp b) :
    v c = v a := by
  have hac := follows_of_le h hik ha hc
  have hcb := follows_of_le h hkj hc hb
  have hs := le_antisymm hac.1 (he ▸ hcb.1)
  exact (hac.2 hs).symm

theorem isChain_snoc {a b : V} (hl : log.getLast? = some a) (hab : Follows v stamp a b) :
    (log++[b]).IsChain (Follows v stamp) := by
  refine List.isChain_append.mpr ⟨h,List.isChain_singleton b,?_⟩
  intro x hx y hy
  cases Option.some.inj (hl.symm.trans hx)
  cases Option.some.inj hy
  exact hab

end

end Cdenv.StampedLog
