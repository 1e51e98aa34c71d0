import Cdenv.Fallible
import Cdenv.TextScan

/-!
# Normalized paths

Host sources and container targets are kept as the text of a normalized absolute
path. The normal form is a field of the type: a value of `ContainerPath` is a text
which normalization returns unchanged, so no later function has to normalize again
and none can be handed a relative, traversing or root target.
-/
namespace Cdenv.ContainerPath
open TextScan Fallible List

inductive PathValidationError where
  | notAbsolute | traversal | controlCharacter | rootTarget
deriving DecidableEq

/-- Empty and `.` components vanish; `..` is refused. -/
def components : List Text → Except PathValidationError (List Text)
  | [] => .ok []
  | component::rest =>
    if component = [] ∨ component = ['.'] then components rest
    else if component = ['.','.'] then .error .traversal
    else (component :: ·) <$> components rest

def joinPath (parts : List Text) : Text := '/'::['/'].intercalate parts

def normalizeAbsolute (value : Text) (allowRoot : Bool) : Except PathValidationError Text := do
  require (value.head? == some '/') .notAbsolute
  require (!value.any isControl) .controlCharacter
  let parts ← components (value.splitOn '/')
  require (!parts.isEmpty || allowRoot) .rootTarget
  return joinPath parts

def pathContains (parent child : Text) : Bool :=
  parent == child ||
    (parent.isPrefixOf child && (parent == ['/'] || child[parent.length]? == some '/'))

/-- A path component that normalization keeps. -/
structure Kept (part : Text) : Prop where
  nonempty : part ≠ []
  notDot : part ≠ ['.']
  notDotDot : part ≠ ['.','.']

variable {parts : List Text} {path value : Text} {allowRoot : Bool}

theorem components_eq_ok {pcs : List Text} (h : components pcs = .ok parts) :
    (∀ pt ∈ parts, Kept pt ∧ pt ∈ pcs) ∧ ∀ pc ∈ pcs, pc = [] ∨ pc = ['.'] ∨ pc ∈ parts := by
  induction pcs generalizing parts with
  | nil =>
    cases h
    simp
  | cons pc pcs ih =>
    simp only [components] at h
    split_ifs at h with hs hup
    · obtain ⟨hk,ha⟩ := ih h
      refine ⟨fun pt hp => ⟨(hk pt hp).1,mem_cons_of_mem _ (hk pt hp).2⟩,?_⟩
      intro q hq
      rcases mem_cons.mp hq with rfl | hq
      · exact hs.imp_right .inl
      · exact ha q hq
    · obtain ⟨tl,ht,rfl⟩ := map_eq_ok.mp h
      obtain ⟨hk,ha⟩ := ih ht
      refine ⟨?_,?_⟩
      · intro pt hp
        rcases mem_cons.mp hp with rfl | hp
        · exact ⟨⟨fun he => hs (.inl he),fun he => hs (.inr he),hup⟩,mem_cons_self⟩
        · exact ⟨(hk pt hp).1,mem_cons_of_mem _ (hk pt hp).2⟩
      · intro q hq
        rcases mem_cons.mp hq with rfl | hq
        · exact .inr (.inr mem_cons_self)
        · exact (ha q hq).imp_right (Or.imp_right (mem_cons_of_mem _))

theorem components_kept (h : ∀ pt ∈ parts, Kept pt) : components parts = .ok parts := by
  induction parts with
  | nil => rfl
  | cons pt parts ih =>
    obtain ⟨h₁,h₂,h₃⟩ := h pt mem_cons_self
    simp only [components,h₁,h₂,h₃,or_self,if_false]
    rw [ih (forall_mem_cons.mp h).2]
    rfl

theorem components_joinPath (h : ∀ pt ∈ parts, '/' ∉ pt) :
    components ((joinPath parts).splitOn '/') = components parts := by
  cases parts with
  | nil => rfl
  | cons pt parts =>
    have hs := splitOn_intercalate '/' h (cons_ne_nil _ _)
    rw [joinPath,splitOn_cons_eq_if_modifyHead,if_pos (beq_self_eq_true _),hs]
    rfl

theorem normalizeAbsolute_eq_ok : normalizeAbsolute value allowRoot = .ok path ↔
      value.head? = some '/' ∧ (∀ c ∈ value, isControl c = false) ∧
        ∃ parts, components (value.splitOn '/') = .ok parts ∧
          (parts ≠ [] ∨ allowRoot = true) ∧ path = joinPath parts := by
  simp only [normalizeAbsolute,bind_eq_ok,pure_eq_ok,require_eq_ok,exists_const,beq_iff_eq,
    Bool.not_eq_true',any_eq_false,Bool.or_eq_true,Bool.not_eq_true,
    isEmpty_eq_false_iff,eq_comm (a := joinPath _)]

theorem mem_joinPath {c : Char} (hc : c ≠ '/') : c ∈ joinPath parts ↔ ∃ part ∈ parts, c ∈ part := by
  simp [joinPath,hc,mem_intercalate hc]

/-- Apart from `/` and `.`, normalization neither adds nor drops a character. -/
theorem mem_normalizeAbsolute {c : Char} (h : normalizeAbsolute value allowRoot = .ok path)
    (hs : c ≠ '/') (hd : c ≠ '.') :
    c ∈ path ↔ c ∈ value := by
  obtain ⟨-,-,parts,hpa,-,rfl⟩ := normalizeAbsolute_eq_ok.mp h
  obtain ⟨hk,ha⟩ := components_eq_ok hpa
  rw [mem_joinPath hs,← mem_splitOn hs (s := value)]
  constructor
  · rintro ⟨pt,hp,hc⟩
    exact ⟨pt,(hk pt hp).2,hc⟩
  · rintro ⟨pc,hp,hc⟩
    rcases ha pc hp with rfl | rfl | hm
    · simp at hc
    · simp [hd] at hc
    · exact ⟨pc,hm,hc⟩

theorem normalizeAbsolute_idempotent (h : normalizeAbsolute value allowRoot = .ok path) :
    normalizeAbsolute path allowRoot = .ok path := by
  obtain ⟨hh,hco,parts,hpa,hr,rfl⟩ := normalizeAbsolute_eq_ok.mp h
  have hk := (components_eq_ok hpa).1
  have hsl : ∀ part ∈ parts, '/' ∉ part := fun part hp => not_mem_of_mem_splitOn (hk part hp).2
  refine normalizeAbsolute_eq_ok.mpr ⟨rfl,?_,parts,?_,hr,rfl⟩
  · intro c hc
    by_cases hs : c = '/'
    · subst hs; decide
    · obtain ⟨part,hp,hcp⟩ := (mem_joinPath hs).mp hc
      exact hco c ((mem_splitOn hs).mp ⟨part,(hk part hp).2,hcp⟩)
  · rw [components_joinPath hsl]
    exact components_kept fun part hp => (hk part hp).1

def segments (path : Text) : List Text :=
  (path.splitOn '/').filter fun piece => piece ≠ [] ∧ piece ≠ ['.']

theorem segments_append (a b : Text) : segments (a++ '/'::b) = segments a++segments b := by
  unfold segments
  rw [splitOn_append_cons_self,filter_append]

/-- Normalization keeps the components and nothing else. -/
theorem components_eq_filter {pcs : List Text} (h : components pcs = .ok parts) :
    parts = pcs.filter fun pc => pc ≠ [] ∧ pc ≠ ['.'] := by
  induction pcs generalizing parts with
  | nil =>
    cases h
    rfl
  | cons pc pcs ih =>
    simp only [components] at h
    split_ifs at h with hs hup
    · rw [ih h,filter_cons_of_neg]
      simpa [or_iff_not_imp_left] using hs
    · obtain ⟨tl,ht,rfl⟩ := map_eq_ok.mp h
      rw [filter_cons_of_pos,ih ht]
      simpa [not_or] using hs

theorem normalizeAbsolute_segments (h : normalizeAbsolute value allowRoot = .ok path) :
    path = joinPath (segments value) ∧ segments path = segments value := by
  obtain ⟨-,-,parts,hpa,-,hpt⟩ := normalizeAbsolute_eq_ok.mp h
  have hk := (components_eq_ok hpa).1
  have hs : components (path.splitOn '/') = .ok parts := by
    rw [hpt,components_joinPath fun pt hp => not_mem_of_mem_splitOn (hk pt hp).2]
    exact components_kept fun pt hp => (hk pt hp).1
  rw [components_eq_filter hpa] at hpt
  exact ⟨hpt,(components_eq_filter hs).symm.trans (components_eq_filter hpa)⟩

theorem joinPath_append {rest : List Text} (hp : parts ≠ []) (hr : rest ≠ []) :
    joinPath (parts++rest) = joinPath parts++ '/'::['/'].intercalate rest := by
  induction parts with
  | nil => exact absurd rfl hp
  | cons pt parts ih =>
    unfold joinPath at ih ⊢
    cases parts with
    | nil => simp [intercalate_cons_of_ne_nil hr]
    | cons pt' parts =>
      have ht := ih (cons_ne_nil _ _)
      rw [cons_append,cons_append,cons.injEq] at ht
      rw [cons_append,cons_append,intercalate_cons_cons,← cons_append,ht.2,intercalate_cons_cons]
      simp

/-- The textual test on normal forms is containment by components. -/
theorem pathContains_iff {par child : Text} {r s : Bool} (hpa : normalizeAbsolute par r = .ok par)
    (hch : normalizeAbsolute child s = .ok child) :
    pathContains par child = true ↔ segments par <+: segments child := by
  have hp := (normalizeAbsolute_segments hpa).1
  have hc := (normalizeAbsolute_segments hch).1
  unfold pathContains
  simp only [Bool.or_eq_true,Bool.and_eq_true,beq_iff_eq, isPrefixOf_iff_prefix]
  constructor
  · rintro (rfl | ⟨⟨xs,hr⟩,rfl | hs⟩)
    · exact prefix_refl _
    · exact nil_prefix
    · have hh : xs.head? = some '/' := by
        rw [← hs,← hr,getElem?_append_right (le_refl _),Nat.sub_self,head?_eq_getElem?]
      obtain ⟨tl,rfl⟩ := head?_eq_some_iff.mp hh
      rw [← hr,segments_append]
      exact prefix_append _ _
  · rintro ⟨xs,hr⟩
    rw [← hr] at hc
    by_cases he : xs = []
    · rw [he,append_nil,← hp] at hc
      exact .inl hc.symm
    · by_cases hro : segments par = []
      · rw [hro] at hp
        exact .inr ⟨hp ▸ hc ▸ ⟨_,rfl⟩,.inl hp⟩
      · rw [joinPath_append hro he,← hp] at hc
        refine .inr ⟨hc ▸ prefix_append _ _,.inr ?_⟩
        rw [hc,getElem?_append_right (le_refl _),Nat.sub_self,getElem?_cons_zero]

theorem normal_forms_contain {par ch path path' : Text} {r s : Bool}
    (hp : normalizeAbsolute par r = .ok path) (hc : normalizeAbsolute ch s = .ok path') :
    normalizeAbsolute path r = .ok path ∧ normalizeAbsolute path' s = .ok path' ∧
      path = joinPath (segments par) ∧ path' = joinPath (segments ch) ∧
      (pathContains path path' = true ↔ segments par <+: segments ch) := by
  have hi := normalizeAbsolute_idempotent hp
  have hi' := normalizeAbsolute_idempotent hc
  obtain ⟨hj,hs⟩ := normalizeAbsolute_segments hp
  obtain ⟨hj',hs'⟩ := normalizeAbsolute_segments hc
  refine ⟨hi,hi',hj,hj',?_⟩
  rw [pathContains_iff hi hi',hs,hs']

theorem normal_forms_contain_sibling :
    normalizeAbsolute "/a/./b" false = .ok "/a/b" ∧ normalizeAbsolute "//a/bc" false = .ok "/a/bc" ∧
      (pathContains "/a/b" "/a/bc" = true ↔ segments "/a/./b" <+: segments "//a/bc") :=
  have hp : normalizeAbsolute "/a/./b" false = .ok "/a/b" := by decide
  have hc : normalizeAbsolute "//a/bc" false = .ok "/a/bc" := by decide
  ⟨hp,hc,(normal_forms_contain hp hc).2.2.2.2⟩

end Cdenv.ContainerPath

namespace Cdenv
open ContainerPath

/-- A normalized absolute path inside a Linux container; never the root. -/
structure ContainerPath where
  value : Text
  normal : normalizeAbsolute value false = .ok value
deriving DecidableEq

def ContainerPath.sample : ContainerPath := ⟨"/opt/cdenv",by decide⟩

/-- A normalized absolute host path. -/
structure HostMountSource where
  value : Text
  normal : normalizeAbsolute value true = .ok value

def normalized {P : Type} (allowRoot : Bool)
    (pack : (path : Text) → normalizeAbsolute path allowRoot = .ok path → P) (value : Text) :
    Except PathValidationError P :=
  match h : normalizeAbsolute value allowRoot with
  | .ok path => .ok (pack path (normalizeAbsolute_idempotent h))
  | .error e => .error e

variable {value : Text} {p : ContainerPath}

theorem normalized_eq_ok {P : Type} {allowRoot : Bool}
    {pack : (path : Text) → normalizeAbsolute path allowRoot = .ok path → P} {p : P} :
    normalized allowRoot pack value = .ok p ↔
      ∃ path h, normalizeAbsolute value allowRoot = .ok path ∧ pack path h = p := by
  unfold normalized
  split
  · next path hp =>
    constructor
    · intro h
      exact ⟨path,_,hp,Except.ok.inj h⟩
    · rintro ⟨path',h',hok,rfl⟩
      cases hp.symm.trans hok
      rfl
  · next e he =>
    constructor
    · exact nofun
    · rintro ⟨path',h',hok,-⟩
      cases he.symm.trans hok

def ContainerPath.parse : Text → Except PathValidationError ContainerPath :=
  normalized false ContainerPath.mk

def HostMountSource.parse : Text → Except PathValidationError HostMountSource :=
  normalized true HostMountSource.mk

theorem ContainerPath.parse_eq_ok :
    ContainerPath.parse value = .ok p ↔ normalizeAbsolute value false = .ok p.value := by
  rw [ContainerPath.parse,normalized_eq_ok]
  exact ⟨fun ⟨_,_,h,hp⟩ => hp ▸ h,fun h => ⟨_,p.normal,h,rfl⟩⟩

theorem HostMountSource.parse_eq_ok {p : HostMountSource} :
    HostMountSource.parse value = .ok p ↔ normalizeAbsolute value true = .ok p.value := by
  rw [HostMountSource.parse,normalized_eq_ok]
  exact ⟨fun ⟨_,_,h,hp⟩ => hp ▸ h,fun h => ⟨_,p.normal,h,rfl⟩⟩

def ContainerPath.overlapsText (p q : Text) : Bool := pathContains p q || pathContains q p

def ContainerPath.overlaps (p q : ContainerPath) : Bool := overlapsText p.value q.value

def ContainerPath.parts (p : ContainerPath) : List Text := segments p.value

theorem ContainerPath.parts_inj {q : ContainerPath} : p.parts = q.parts ↔ p.value = q.value := by
  constructor
  · intro h
    rw [(normalizeAbsolute_segments p.normal).1,(normalizeAbsolute_segments q.normal).1]
    exact congrArg joinPath h
  · intro h
    exact congrArg segments h

theorem ContainerPath.overlaps_eq_false {q : ContainerPath} :
    p.overlaps q = false ↔ ¬ p.parts <+: q.parts ∧ ¬ q.parts <+: p.parts := by
  rw [overlaps,overlapsText,Bool.or_eq_false_iff,← Bool.not_eq_true,← Bool.not_eq_true,
    pathContains_iff p.normal q.normal,pathContains_iff q.normal p.normal]
  rfl

end Cdenv
