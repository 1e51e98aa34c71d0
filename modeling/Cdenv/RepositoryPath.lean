import Cdenv.ContainerPath
import Mathlib.Logic.Relation

/-!
# Paths in a checkout

A path from the configuration is resolved against a directory of the checkout by a stack
of components, and fails when the components climb above the root.
-/
namespace Cdenv.RepositoryPath
open TextScan ContainerPath List Relation

def resolveComponent (components : List Text) (component : Text) : Option (List Text) :=
  if component = [] ∨ component = ['.'] then some components
  else if component = ['.','.'] then
    if components = [] then none else some components.dropLast
  else some (components++[component])

def render (components : List Text) : Text :=
  if components = [] then ['.'] else ['/'].intercalate components

def resolveRepositoryPath (base value : Text) : Option Text :=
  if value.head? = some '/' ∨ '\\' ∈ value ∨ value.any isControl then none
  else ((base.splitOn '/'++value.splitOn '/').foldlM resolveComponent []).map render

/-- Neither empty nor `.` nor the parent component. -/
def isOrdinary (component : Text) : Bool :=
  component ≠ [] ∧ component ≠ ['.'] ∧ component ≠ ['.','.']

/-- No beginning of the sequence has more parent components than ordinary ones, those of the
stack included. -/
def Balanced (depth : ℕ) (components : List Text) : Prop :=
  ∀ front, front <+: components → front.count ['.','.'] ≤ depth+front.countP isOrdinary

/-- A component that stands for nothing is dropped; a name is cancelled by its parent. -/
inductive Simplifies : List Text → List Text → Prop
  | skip {a b : List Text} {c : Text} (h : c = [] ∨ c = ['.']) : Simplifies (a++c::b) (a++b)
  | back {a b : List Text} {c : Text} (h : Kept c) : Simplifies (a++c::['.','.']::b) (a++b)

abbrev Plain (text : Text) : Prop := '\\' ∉ text ∧ ∀ c ∈ text, isControl c = false

theorem balanced_cons {d : ℕ} {c : Text} {rest : List Text} : Balanced d (c::rest) ↔
      if c = [] ∨ c = ['.'] then Balanced d rest
      else if c = ['.','.'] then 0 < d ∧ Balanced (d - 1) rest
      else Balanced (d+1) rest := by
  have hc : Balanced d (c::rest) ↔ ∀ fr, fr <+: rest →
      (c::fr).count ['.','.'] ≤ d+(c::fr).countP isOrdinary := by
    constructor
    · intro h fr hf
      exact h _ ((prefix_cons_inj c).mpr hf)
    · intro h fr hf
      rcases prefix_cons_iff.mp hf with rfl | ⟨fr,rfl,hr⟩
      · simp
      · exact h fr hr
  rw [hc]
  split_ifs with hs hup
  · rcases hs with rfl | rfl <;> simp [Balanced,isOrdinary]
  · subst hup
    have ho : isOrdinary ['.','.'] = false := by decide
    simp only [Balanced,count_cons_self,countP_cons,ho,Bool.false_eq_true,if_false]
    constructor
    · intro h
      have hfi := h [] nil_prefix
      exact ⟨by simp at hfi; omega,fun fr hf => by have := h fr hf; omega⟩
    · intro h fr hf
      have := h.2 fr hf
      omega
  · have ho : isOrdinary c = true := by
      simp only [not_or] at hs
      simp [isOrdinary,hs,hup]
    simp [Balanced,count_cons_of_ne hup,ho,Nat.add_right_comm,Nat.add_assoc]

theorem isSome_foldlM (components stk : List Text) :
    (components.foldlM resolveComponent stk).isSome ↔ Balanced stk.length components := by
  induction components generalizing stk with
  | nil => simp [Balanced]
  | cons c xs ih =>
    rw [foldlM_cons,balanced_cons,resolveComponent]
    split_ifs with hs hup he
    · exact ih stk
    · simp [he]
    · have := length_pos_iff.mpr he
      simp [ih,this]
    · simp [ih]

theorem simplifies_foldlM {cmps stk ns : List Text} (hst : ∀ c ∈ stk, Kept c)
    (h : cmps.foldlM resolveComponent stk = some ns) :
    ReflTransGen Simplifies (stk++cmps) ns ∧ ∀ c ∈ ns, Kept c ∧ (c ∈ stk ∨ c ∈ cmps) := by
  induction cmps generalizing stk with
  | nil =>
    cases h
    simp only [append_nil]
    exact ⟨.refl,fun c hc => ⟨hst c hc,.inl hc⟩⟩
  | cons c xs ih =>
    rw [foldlM_cons,resolveComponent] at h
    split_ifs at h with hsk hup hem
    · obtain ⟨hs,hk⟩ := ih hst h
      exact ⟨.head (.skip hsk) hs,by grind⟩
    · cases h
    · obtain ⟨init,l,rfl⟩ := (eq_nil_or_concat stk).resolve_left hem
      rw [concat_eq_append] at h hst ⊢
      obtain ⟨hi,hl⟩ := forall_mem_append.mp hst
      simp only [dropLast_concat,Option.bind_eq_bind,Option.bind_some] at h
      obtain ⟨hs,hk⟩ := ih hi h
      rw [append_assoc,hup]
      exact ⟨.head (.back (hl l mem_cons_self)) hs,by grind⟩
    · have hc : Kept c := ⟨fun he => hsk (.inl he),fun he => hsk (.inr he),hup⟩
      obtain ⟨hs,hk⟩ := ih (by grind) h
      rw [append_assoc] at hs
      exact ⟨hs,by grind⟩

theorem Plain.piece {text piece : Text} (h : Plain text) (hp : piece ∈ text.splitOn '/') :
    '/' ∉ piece ∧ Plain piece := by
  have hs := not_mem_of_mem_splitOn hp
  have hm : ∀ c ∈ piece, c ∈ text := by
    intro c hc
    have hne : c ≠ '/' := fun he => hs (he ▸ hc)
    exact (mem_splitOn hne).mp ⟨piece,hp,hc⟩
  exact ⟨hs,fun hc => h.1 (hm _ hc),fun c hc => h.2 c (hm c hc)⟩

theorem foldlM_kept {ns : List Text} (h : ∀ n ∈ ns, Kept n) (stk : List Text) :
    ns.foldlM resolveComponent stk = some (stk++ns) := by
  induction ns generalizing stk with
  | nil => simp
  | cons n ns ih =>
    obtain ⟨⟨h₁,h₂,h₃⟩,hr⟩ := forall_mem_cons.mp h
    rw [foldlM_cons,resolveComponent,if_neg (by simp [h₁,h₂]),if_neg h₃]
    simpa using ih hr (stk++[n])

theorem resolveRepositoryPath_plain {base v : Text} (hv : Plain v)
    (hr : v.head? ≠ some '/') : resolveRepositoryPath base v =
      ((base.splitOn '/'++v.splitOn '/').foldlM resolveComponent []).map render := by
  refine if_neg ?_
  simpa [hr,hv.1] using hv.2

theorem resolveRepositoryPath_render {ns : List Text} (h : ∀ n ∈ ns, Kept n ∧ '/' ∉ n ∧ Plain n) :
    resolveRepositoryPath [] (render ns) = some (render ns) := by
  cases ns with
  | nil => decide
  | cons n xs =>
    have hr : render (n::xs) = ['/'].intercalate (n::xs) := rfl
    have hpl : ∀ c ∈ render (n::xs), c ≠ '\\' ∧ isControl c = false := by
      intro c hc
      by_cases hs : c = '/'
      · subst hs
        decide
      · obtain ⟨p,hp,hm⟩ := (mem_intercalate hs).mp (hr ▸ hc)
        obtain ⟨-,-,hb,hco⟩ := h p hp
        exact ⟨fun he => hb (he ▸ hm),hco c hm⟩
    rw [resolveRepositoryPath_plain]
    · rw [hr,splitOn_intercalate '/' (fun p hp => (h p hp).2.1) (cons_ne_nil _ _),foldlM_append]
      change ((n::xs).foldlM resolveComponent []).map render = _
      rw [foldlM_kept fun p hp => (h p hp).1]
      rfl
    · exact ⟨fun hc => (hpl _ hc).1 rfl,fun c hc => (hpl c hc).2⟩
    · obtain ⟨hk,hs,-⟩ := h n mem_cons_self
      obtain ⟨c,cs,rfl⟩ := exists_cons_of_ne_nil hk.nonempty
      intro hh
      refine hs ?_
      cases xs <;> simp_all [intercalate_cons_cons]

theorem resolveRepositoryPath_iff (base value : Text) (hbase : Plain base) (hvalue : Plain value)
    (hrelative : value.head? ≠ some '/') :
    ((resolveRepositoryPath base value).isSome ↔ Balanced 0 (base.splitOn '/'++value.splitOn '/')) ∧
    ∀ path, resolveRepositoryPath base value = some path →
      (∃ names, ReflTransGen Simplifies (base.splitOn '/'++value.splitOn '/') names ∧
        (∀ name ∈ names, Kept name) ∧ path = render names) ∧
      (path = ['.'] ∨ ∀ piece ∈ path.splitOn '/', Kept piece) ∧
      resolveRepositoryPath [] path = some path := by
  rw [resolveRepositoryPath_plain hvalue hrelative,Option.isSome_map,isSome_foldlM]
  refine ⟨Iff.rfl,fun path hpt => ?_⟩
  obtain ⟨names,hna,rfl⟩ := Option.map_eq_some_iff.mp hpt
  obtain ⟨hst,hk⟩ := @simplifies_foldlM _ [] _ nofun hna
  have hp : ∀ name ∈ names, Kept name ∧ '/' ∉ name ∧ Plain name := by
    intro name hn
    obtain ⟨hn,hm⟩ := hk name hn
    rcases mem_append.mp (hm.resolve_left not_mem_nil) with hm | hm
    · exact ⟨hn,hbase.piece hm⟩
    · exact ⟨hn,hvalue.piece hm⟩
  refine ⟨⟨names,hst,fun name hn => (hk name hn).1,rfl⟩,?_,resolveRepositoryPath_render hp⟩
  cases names with
  | nil => exact .inl rfl
  | cons name xs =>
    have hs := splitOn_intercalate '/' (fun p hpa => (hp p hpa).2.1) (cons_ne_nil name xs)
    exact .inr fun piece hpi => (hp piece (hs ▸ hpi)).1

theorem resolveRepositoryPath_sibling :
    resolveRepositoryPath ".devcontainer" "../src" = some "src" ∧
      resolveRepositoryPath [] "src" = some "src" := by
  have h := resolveRepositoryPath_iff ".devcontainer" "../src"
    ⟨by decide,all_iff_forall_prop.mp (by decide)⟩ ⟨by decide,all_iff_forall_prop.mp (by decide)⟩
    (by decide)
  exact ⟨by decide,(h.2 "src" (by decide)).2.2⟩

end Cdenv.RepositoryPath
