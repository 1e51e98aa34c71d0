import Mathlib.Data.List.Chain

/-!
# Schedules of a dependency relation

A list schedules a relation when everything an element depends on stands strictly
to its left. Appending a batch whose dependencies already stand in the list keeps
a schedule a schedule, whatever the order inside the batch: this is the only fact
a round-based algorithm has to supply. A relation with a schedule has no closed walk. Rounds that
take all ready elements of the highest priority in a strict order leave one list at most.
-/
namespace Cdenv.DependencyOrder
open List
variable {A : Type*}

/-- Some occurrence of `b` has `a` strictly before it. -/
def Before (l : List A) (a b : A) : Prop := ∃ pre post, l = pre++b::post ∧ a ∈ pre

/-- Every occurrence of `b` has everything `b` depends on before it. -/
def Scheduled (deps : A → A → Prop) (l : List A) : Prop :=
  ∀ pre b post, l = pre++b::post → ∀ a, deps b a → a ∈ pre

theorem scheduled_nil (deps : A → A → Prop) : Scheduled deps [] := by
  intro pre b post h
  simp at h

variable {deps : A → A → Prop}

theorem Scheduled.append {l batch : List A} (hl : Scheduled deps l)
    (hb : ∀ b ∈ batch, ∀ a, deps b a → a ∈ l) : Scheduled deps (l++batch) := by
  intro pre b post h a ha
  rcases append_eq_append_iff.mp h with ⟨mid,hpr,hba⟩ | ⟨mid,hl',hp⟩
  · have hm : b ∈ batch := by rw [hba]; simp
    rw [hpr]
    exact mem_append_left _ (hb b hm a ha)
  · -- `b` opens the batch, or it already stood in the old list
    cases mid with
    | nil =>
      have hm : b ∈ batch := by rw [← nil_append batch,← hp]; simp
      rw [show pre = l by simpa using hl'.symm]
      exact hb b hm a ha
    | cons c mid =>
      obtain ⟨rfl,-⟩ := cons.inj hp
      exact hl pre b mid hl' a ha

theorem Scheduled.before {l : List A} (hl : Scheduled deps l) {a b : A} (hb : b ∈ l)
    (hd : deps b a) : Before l a b := by
  obtain ⟨pre,post,h⟩ := append_of_mem hb
  exact ⟨pre,post,h,hl pre b post h a hd⟩

/-- A walk along a relation that comes back to where it began. -/
structure ClosedWalk (R : A → A → Prop) (walk : List A) : Prop where
  chain : walk.IsChain R
  returns : walk.head? = walk.getLast?
  moves : 2 ≤ walk.length

variable {R : A → A → Prop}

theorem ClosedWalk.transGen {walk : List A} (h : ClosedWalk R walk) :
    ∃ a, Relation.TransGen R a a := by
  obtain ⟨hc,hr,hm⟩ := h
  cases walk with
  | nil => simp at hm
  | cons a rest =>
    have hne : rest ≠ [] := by
      rintro rfl
      simp at hm
    have hl : a ∈ rest := by
      rw [head?_cons,getLast?_cons_of_ne_nil hne] at hr
      exact mem_of_getLast? hr.symm
    have hp := isChain_iff_pairwise.mp (hc.imp fun _ _ => Relation.TransGen.single)
    exact ⟨a,(pairwise_cons.mp hp).1 a hl⟩

theorem Scheduled.acyclic {l : List A} (hl : Scheduled R l) {a : A} (ha : a ∈ l) :
    ¬ Relation.TransGen R a a := by
  -- Whatever an occurrence depends on, at any distance, stands before it.
  have hb : ∀ b, Relation.TransGen R a b → ∀ pre post, l = pre++a::post → b ∈ pre := by
    intro b hab
    induction hab with
    | single hab => exact fun pre post hs => hl pre a post hs _ hab
    | @tail c b _ hcb ih =>
      intro pre post hs
      obtain ⟨pre',mid,hp⟩ := append_of_mem (ih pre post hs)
      have hc := hl pre' c (mid++a::post) (by simp [hs,hp]) b hcb
      rw [hp]
      exact mem_append_left _ hc
  intro hcy
  obtain ⟨pre,post,hs,hf⟩ := eq_append_cons_of_mem ha
  exact hf (hb a hcy pre post hs)

/-- Wanted, not taken yet, and everything it depends on is taken. -/
structure Ready (wanted : A → Prop) (deps : A → A → Prop) (taken : List A) (a : A) : Prop where
  wanted : wanted a
  fresh : a ∉ taken
  met : ∀ b, deps a b → b ∈ taken

/-- What is left to take when every round takes exactly the ready elements of the highest
priority, in order, until nothing wanted is left. -/
inductive InRounds (wanted : A → Prop) (deps : A → A → Prop) (priority : A → ℕ)
    (before : A → A → Prop) : List A → List A → Prop
  | done {taken : List A} (h : ∀ a, wanted a → a ∈ taken) :
      InRounds wanted deps priority before taken []
  | round {taken batch rest : List A} (hne : batch ≠ [])
      (hbatch : ∀ a, a ∈ batch ↔ Ready wanted deps taken a ∧
        ∀ b, Ready wanted deps taken b → priority b ≤ priority a)
      (hsorted : batch.Pairwise before)
      (hrest : InRounds wanted deps priority before (taken++batch) rest) :
      InRounds wanted deps priority before taken (batch++rest)

theorem InRounds.unique {wnt : A → Prop} {priority : A → ℕ} {bef : A → A → Prop}
    (has : ∀ a b, bef a b → ¬ bef b a) {taken l l' : List A}
    (h : InRounds wnt deps priority bef taken l)
    (h' : InRounds wnt deps priority bef taken l') : l = l' := by
  -- A round takes something that is wanted and was not taken before.
  have ho : ∀ {taken bt : List A}, bt ≠ [] → (∀ a, a ∈ bt ↔
      Ready wnt deps taken a ∧ ∀ b, Ready wnt deps taken b → priority b ≤ priority a) →
      ¬ ∀ a, wnt a → a ∈ taken := by
    intro taken bt hne hb hal
    obtain ⟨a,ha⟩ := exists_mem_of_ne_nil bt hne
    have hr := ((hb a).mp ha).1
    exact hr.fresh (hal a hr.wanted)
  have hn : ∀ {bt : List A}, bt.Pairwise bef → bt.Nodup := by
    intro bt hs
    refine hs.imp ?_
    rintro a b hab rfl
    exact has a a hab hab
  induction h generalizing l' with
  | done hal =>
    cases h' with
    | done _ => rfl
    | round hne hb _ _ => exact absurd hal (ho hne hb)
  | round hne hb hs _ ih =>
    cases h' with
    | done hal => exact absurd hal (ho hne hb)
    | round _ hb' hs' hr' =>
      have hp := (perm_ext_iff_of_nodup (hn hs) (hn hs')).mpr fun a => (hb a).trans (hb' a).symm
      obtain rfl := hp.eq_of_pairwise (fun a b _ _ hab hba => absurd hba (has a b hab)) hs hs'
      rw [ih hr']

end Cdenv.DependencyOrder
