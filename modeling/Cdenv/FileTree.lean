import Cdenv.OrderedMap
import Mathlib.Data.List.Infix

/-!
# Trees of files and their atomic replacement

Finite trees of directories, files and other things. Nothing exists below a path that does
not, and what removes a directory removes what is below it or must find nothing there.

An error at any stage of a replacement is reported to the caller. Only one at the last stage
is reported after the file has been replaced. A crash leaves what an error at the same place
leaves.
-/
namespace Cdenv

inductive FileNode (C : Type*) where
  | directory
  | file (content : C)
  | other

/-- What stands at each path. Whatever exists has a directory above it at every level. -/
structure FileTree (K C : Type*) [LinearOrder K] where
  nodes : OrderedMap (List K) (FileNode C)
  closed : ∀ p q n, nodes.get? q = some n → p <+: q → p ≠ q → nodes.get? p = some .directory

namespace FileTree
variable {K C : Type*} [LinearOrder K]

def node (t : FileTree K C) (p : List K) : Option (FileNode C) := t.nodes.get? p

variable {t : FileTree K C}

theorem node_eq_none_of_below {p q : List K} (hp : t.node p = none) (hpq : p <+: q) :
    t.node q = none := by
  by_contra hq
  obtain ⟨n,hn⟩ := Option.ne_none_iff_exists'.mp hq
  by_cases hs : p = q
  · rw [← hs,hp] at hn
    cases hn
  · have hd := t.closed p q n hn hpq hs
    rw [node,hd] at hp
    cases hp

def occupied (t : FileTree K C) (p : List K) : Bool :=
  t.nodes.keys.any fun q => p.isPrefixOf q && p != q

theorem eq_of_not_occupied {p q : List K} {n : FileNode C} (he : t.occupied p = false)
    (hq : t.nodes.get? q = some n) (hpq : p <+: q) : p = q := by
  by_contra hne
  have ho : t.occupied p = true := by
    unfold occupied
    rw [List.any_eq_true]
    refine ⟨q,OrderedMap.mem_keys.mpr ⟨n,hq⟩,?_⟩
    simp [List.isPrefixOf_iff_prefix.mpr hpq,hne]
  rw [he] at ho
  cases ho

def hasParent (t : FileTree K C) (p : List K) : Bool :=
  !p.isEmpty && (match t.node p.dropLast with
    | some .directory => true
    | _ => false)

theorem directory_above {p q : List K} (hp : t.hasParent q = true) (hpq : p <+: q)
    (hne : p ≠ q) : t.nodes.get? p = some .directory := by
  unfold hasParent at hp
  rw [Bool.and_eq_true] at hp
  obtain ⟨hno,hd⟩ := hp
  have hd : t.nodes.get? q.dropLast = some .directory := by
    split at hd
    · next hn => exact hn
    · cases hd
  have hq : q ≠ [] := by simpa using hno
  rw [← List.dropLast_append_getLast hq,List.prefix_concat_iff,
    List.dropLast_append_getLast hq] at hpq
  have hpq := hpq.resolve_left hne
  by_cases hs : p = q.dropLast
  · rw [hs]
    exact hd
  · exact t.closed p _ _ hd hpq hs

def create (t : FileTree K C) (p : List K) (n : FileNode C) : Option (FileTree K C) :=
  if h : t.hasParent p = true ∧ t.node p = none then
    some ⟨t.nodes.insert p n,by
      intro r q m hq hrq hne
      rw [OrderedMap.get?_insert] at hq
      have hrp : r ≠ p := by
        rintro rfl
        split_ifs at hq with hsame
        · exact hne hsame
        · have hdirectory := t.closed _ _ _ hq hrq hne
          rw [← node,h.2] at hdirectory
          cases hdirectory
      rw [OrderedMap.get?_insert,if_neg hrp.symm]
      split_ifs at hq with hsame
      · exact t.directory_above h.1 (hsame ▸ hrq) hrp
      · exact t.closed _ _ _ hq hrq hne⟩
  else none

theorem node_create {s : FileTree K C} {p q : List K} {n : FileNode C} (h : t.create p n = some s) :
    s.node q = if p = q then some n else t.node q := by
  unfold create at h
  split_ifs at h
  cases h
  unfold node
  rw [t.nodes.get?_insert p q n]
  split_ifs <;> rfl

def rewrite (t : FileTree K C) (p : List K) (content : C) : Option (FileTree K C) :=
  match h : t.node p with
  | some (.file _) => some ⟨t.nodes.insert p (.file content),by
      intro r q m hq hrq hne
      have hrp : r ≠ p := by
        rintro rfl
        rw [OrderedMap.get?_insert,if_neg hne] at hq
        have hdirectory := t.closed _ _ _ hq hrq hne
        rw [← node,h] at hdirectory
        cases hdirectory
      rw [OrderedMap.get?_insert,if_neg hrp.symm]
      rw [OrderedMap.get?_insert] at hq
      split_ifs at hq with hsame
      · exact t.closed r p _ h (hsame ▸ hrq) hrp
      · exact t.closed _ _ _ hq hrq hne⟩
  | _ => none

def write (t : FileTree K C) (p : List K) (content : C) : Option (FileTree K C) :=
  (t.rewrite p content).or (t.create p (.file content))

theorem node_write {s : FileTree K C} {p q : List K} {ct : C} (h : t.write p ct = some s) :
    s.node q = if p = q then some (.file ct) else t.node q := by
  unfold write at h
  rw [Option.or_eq_some_iff] at h
  rcases h with h | ⟨-,h⟩
  · unfold rewrite at h
    split at h
    · cases h
      unfold node
      rw [t.nodes.get?_insert p q (.file ct)]
      split_ifs <;> rfl
    · cases h
  · exact node_create h

def remove (t : FileTree K C) (p : List K) : Option (FileTree K C) :=
  if h : t.occupied p = false then
    some ⟨t.nodes.erase p,by
      intro r q m hq hrq hne
      rw [OrderedMap.get?_erase] at hq ⊢
      split_ifs at hq with hpq
      have hrp : p ≠ r := by
        rintro rfl
        exact hpq (t.eq_of_not_occupied h hq hrq)
      rw [if_neg hrp]
      exact t.closed _ _ _ hq hrq hne⟩
  else none

theorem node_remove {s : FileTree K C} {p q : List K} (h : t.remove p = some s) :
    s.node q = if p = q then none else t.node q := by
  unfold remove at h
  split_ifs at h
  cases h
  unfold node
  rw [t.nodes.get?_erase p q]
  split_ifs <;> rfl

def removeTree (t : FileTree K C) (p : List K) : FileTree K C where
  nodes := t.nodes.filterKeys fun q => !p.isPrefixOf q
  closed := by
    intro r q m hq hrq hne
    rw [OrderedMap.get?_filterKeys] at hq ⊢
    split_ifs at hq with hkept
    have hr : (!p.isPrefixOf r) = true := by
      simp only [Bool.not_eq_true',← Bool.not_eq_true,List.isPrefixOf_iff_prefix] at hkept ⊢
      exact fun hpr => hkept (hpr.trans hrq)
    rw [if_pos hr]
    exact t.closed _ _ _ hq hrq hne

theorem node_removeTree {p q : List K} (hpq : p <+: q) : (t.removeTree p).node q = none := by
  unfold removeTree node
  rw [OrderedMap.get?_filterKeys,List.isPrefixOf_iff_prefix.mpr hpq]
  rfl

end FileTree

/-- A private temporary is written beside the file, synced and renamed over it; the parent
directory is synced last. -/
inductive AtomicWriteStage where
  | inspect | createTemporary | setPermissions | write | flush | syncFile | rename | syncParent
deriving DecidableEq

/-- The file's content after a write that fails at the given stage, if at any, and what
the caller learns. -/
def atomicWrite {α : Type*} (old new : α) (failure : Option AtomicWriteStage) :
    α × Except AtomicWriteStage Unit :=
  match failure with
  | none => (new, .ok ())
  | some .syncParent => (new, .error .syncParent)
  | some stage => (old, .error stage)

namespace AtomicWrite
variable {α : Type*} {old new : α} {failure : Option AtomicWriteStage}

def takesEffect (failure : Option AtomicWriteStage) : Bool :=
  match failure with
  | none | some .syncParent => true
  | _ => false

/-- A failure is reported only where there has been no effect. -/
def AllOrNothing (failure : Option AtomicWriteStage) : Prop :=
  failure ≠ none → takesEffect failure = false

instance : Decidable (AllOrNothing failure) := inferInstanceAs (Decidable (_ → _))

/-- Only the last stage fails after the effect. -/
theorem eq_syncParent {stg : AtomicWriteStage} (h : takesEffect (some stg) = true) :
    stg = .syncParent := by
  cases stg <;> first | rfl | cases h

theorem atomicWrite_fst :
    (atomicWrite old new failure).1 = if takesEffect failure then new else old := by
  unfold atomicWrite takesEffect
  split
  · rfl
  · rfl
  · next stg hs =>
    cases stg <;> first | rfl | exact (hs rfl).elim

theorem atomicWrite_snd_eq_ok : (atomicWrite old new failure).2 = .ok () ↔ failure = none := by
  unfold atomicWrite
  split
  all_goals simp

end AtomicWrite
end Cdenv
