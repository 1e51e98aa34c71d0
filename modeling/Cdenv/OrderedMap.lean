import Mathlib.Order.Lattice
import Mathlib.Data.List.Lex
import Mathlib.Data.List.Pairwise

/-!
# Key-ordered finite maps

A map is its own iteration order: the list of entries in strictly increasing key
order. The order is a field, so two maps with the same bindings are the same
value and no later proof has to rule out a repeated key. Lookup, insertion,
removal and the value-wise update are the four operations; a set is a map to
`Unit`. Nothing here fixes the key or the value type.
-/
namespace Cdenv
open List

/-- Entries in strictly increasing key order. -/
structure OrderedMap (K V : Type*) [LinearOrder K] where
  entries : List (K × V)
  sorted : entries.Pairwise fun a b => a.1 < b.1
deriving DecidableEq

namespace OrderedMap
variable {K V W : Type*} [LinearOrder K]

def empty : OrderedMap K V := ⟨[],List.Pairwise.nil⟩

instance : Inhabited (OrderedMap K V) := ⟨empty⟩

def keys (m : OrderedMap K V) : List K := m.entries.map Prod.fst

def values (m : OrderedMap K V) : List V := m.entries.map Prod.snd

def size (m : OrderedMap K V) : ℕ := m.entries.length

def lookup (k : K) : List (K × V) → Option V
  | [] => none
  | (k',v)::rest => if k' = k then some v else lookup k rest

def get? (m : OrderedMap K V) (k : K) : Option V := lookup k m.entries

def contains (m : OrderedMap K V) (k : K) : Bool := (m.get? k).isSome

/-- Insertion replaces the value of an equal key and keeps its place. -/
def insertEntry (k : K) (v : V) : List (K × V) → List (K × V)
  | [] => [(k,v)]
  | (k',v')::rest =>
    if k < k' then (k,v)::(k',v')::rest
    else if k' = k then (k,v)::rest
    else (k',v')::insertEntry k v rest

variable {k : K} {v : V} {l : List (K × V)}

theorem mem_insertEntry {p : K × V} (h : p ∈ insertEntry k v l) : p = (k,v) ∨ p ∈ l := by
  induction l with
  | nil => simpa [insertEntry] using h
  | cons q xs ih =>
    simp only [insertEntry] at h
    split_ifs at h with h₁ h₂
    · simpa using h
    · rcases mem_cons.mp h with h | h
      · exact .inl h
      · exact .inr (mem_cons_of_mem _ h)
    · rcases mem_cons.mp h with h | h
      · exact .inr (h ▸ mem_cons_self)
      · exact (ih h).imp_right (mem_cons_of_mem _)

theorem insertEntry_sorted (k : K) (v : V) (h : l.Pairwise fun a b => a.1 < b.1) :
    (insertEntry k v l).Pairwise fun a b => a.1 < b.1 := by
  induction l with
  | nil => simp [insertEntry]
  | cons q xs ih =>
    obtain ⟨hq,hr⟩ := pairwise_cons.mp h
    simp only [insertEntry]
    split_ifs with h₁ h₂
    · refine pairwise_cons.mpr ⟨?_,h⟩
      intro p hp
      rcases mem_cons.mp hp with rfl | hp
      · exact h₁
      · exact h₁.trans (hq p hp)
    · refine pairwise_cons.mpr ⟨?_,hr⟩
      intro p hp
      exact h₂ ▸ hq p hp
    · refine pairwise_cons.mpr ⟨?_,ih hr⟩
      intro p hp
      rcases mem_insertEntry hp with rfl | hp
      · exact lt_of_le_of_ne (not_lt.mp h₁) h₂
      · exact hq p hp

def insert (m : OrderedMap K V) (k : K) (v : V) : OrderedMap K V :=
  ⟨insertEntry k v m.entries,insertEntry_sorted k v m.sorted⟩

def erase (m : OrderedMap K V) (k : K) : OrderedMap K V :=
  ⟨m.entries.filter fun p => p.1 ≠ k,m.sorted.filter _⟩

def filterKeys (m : OrderedMap K V) (kept : K → Bool) : OrderedMap K V :=
  ⟨m.entries.filter fun p => kept p.1,m.sorted.filter _⟩

/-- The in-place update of every value; keys and order are untouched. -/
def mapValues (f : K → V → W) (m : OrderedMap K V) : OrderedMap K W :=
  ⟨m.entries.map fun p => (p.1, f p.1 p.2),List.pairwise_map.mpr m.sorted⟩

/-- The values that are kept, under their keys. -/
def filterMapValues (f : V → Option W) (m : OrderedMap K V) : OrderedMap K W :=
  ⟨m.entries.filterMap fun p => (f p.2).map (p.1, ·),by
    rw [List.pairwise_filterMap]
    refine m.sorted.imp ?_
    intro a b hlt c hc d hd
    obtain ⟨v,-,rfl⟩ := Option.map_eq_some_iff.mp hc
    obtain ⟨w,-,rfl⟩ := Option.map_eq_some_iff.mp hd
    exact hlt⟩

def ofList (l : List (K × V)) : OrderedMap K V :=
  l.foldl (fun m p => m.insert p.1 p.2) empty

theorem lookup_mem (h : lookup k l = some v) : (k,v) ∈ l := by
  induction l with
  | nil => simp [lookup] at h
  | cons q xs ih =>
    simp only [lookup] at h
    split_ifs at h with hk
    · cases h
      exact hk ▸ mem_cons_self
    · exact mem_cons_of_mem _ (ih h)

theorem lookup_of_mem (hs : l.Pairwise fun a b => a.1 < b.1) (h : (k,v) ∈ l) :
    lookup k l = some v := by
  induction l with
  | nil => simp at h
  | cons q xs ih =>
    obtain ⟨hq,hr⟩ := pairwise_cons.mp hs
    simp only [lookup]
    rcases mem_cons.mp h with rfl | h
    · simp
    · rw [if_neg (hq _ h).ne]
      exact ih hr h

theorem mem_entries (m : OrderedMap K V) : (k,v) ∈ m.entries ↔ m.get? k = some v :=
  ⟨lookup_of_mem m.sorted,lookup_mem⟩

@[simp] theorem get?_empty (k : K) : (empty : OrderedMap K V).get? k = none := rfl

theorem lookup_insertEntry (k k' : K) (v : V) (l : List (K × V)) :
    lookup k' (insertEntry k v l) = if k = k' then some v else lookup k' l := by
  induction l with
  | nil => simp [insertEntry,lookup]
  | cons q xs ih =>
    by_cases he : k = k'
    · subst he
      simp only [insertEntry,if_true] at ih ⊢
      split_ifs with h₁ h₂
      · simp [lookup]
      · simp [lookup]
      · simpa [lookup,h₂] using ih
    · simp only [insertEntry,he,if_false] at ih ⊢
      split_ifs with h₁ h₂
      · simp [lookup,he]
      · simp [lookup,h₂,he]
      · simp only [lookup,ih]

theorem get?_insert (m : OrderedMap K V) (k k' : K) (v : V) :
    (m.insert k v).get? k' = if k = k' then some v else m.get? k' :=
  lookup_insertEntry k k' v m.entries

theorem get?_erase (m : OrderedMap K V) (k k' : K) :
    (m.erase k).get? k' = if k = k' then none else m.get? k' := by
  apply Option.ext
  intro v
  rw [← mem_entries]
  simp only [erase,mem_filter,decide_eq_true_eq]
  rw [mem_entries]
  split_ifs with h
  · simp [h]
  · simp [Ne.symm h]

theorem get?_filterKeys (m : OrderedMap K V) (kept : K → Bool) (k : K) :
    (m.filterKeys kept).get? k = if kept k then m.get? k else none := by
  apply Option.ext
  intro v
  rw [← mem_entries,filterKeys,mem_filter,mem_entries]
  split_ifs with hk
  all_goals simp [hk]

theorem lookup_map (f : K → V → W) (k : K) (l : List (K × V)) :
    lookup k (l.map fun p => (p.1, f p.1 p.2)) = (lookup k l).map (f k) := by
  induction l with
  | nil => rfl
  | cons q xs ih =>
    simp only [map_cons,lookup]
    split_ifs with h
    · simp [h]
    · exact ih

@[simp] theorem get?_mapValues (f : K → V → W) (m : OrderedMap K V) (k : K) :
    (m.mapValues f).get? k = (m.get? k).map (f k) :=
  lookup_map f k m.entries

@[simp] theorem keys_mapValues (f : K → V → W) (m : OrderedMap K V) :
    (m.mapValues f).keys = m.keys := by
  simp [keys,mapValues,Function.comp_def]

variable {m : OrderedMap K V}

theorem get?_filterMapValues {f : V → Option W} {w : W} :
    (m.filterMapValues f).get? k = some w ↔ ∃ v, m.get? k = some v ∧ f v = some w := by
  simp only [← mem_entries,filterMapValues,mem_filterMap,Option.map_eq_some_iff,
    Prod.mk.injEq,Prod.exists]
  constructor
  · rintro ⟨k',v,hv,w',hw,rfl,rfl⟩
    exact ⟨v,hv,hw⟩
  · rintro ⟨v,hv,hw⟩
    exact ⟨k,v,hv,w,hw,rfl,rfl⟩

/-- A map is its bindings. -/
theorem ext_get? {m' : OrderedMap K V} (h : ∀ k, m.get? k = m'.get? k) : m = m' := by
  have hn (m : OrderedMap K V) : m.entries.Nodup := by
    refine m.sorted.imp ?_
    rintro a b hlt rfl
    exact lt_irrefl _ hlt
  have hm : ∀ p, p ∈ m.entries ↔ p ∈ m'.entries := by
    intro p
    rw [mem_entries,mem_entries,h]
  have hp := (perm_ext_iff_of_nodup (hn m) (hn m')).mpr hm
  have he : m.entries = m'.entries := by
    refine List.Perm.eq_of_pairwise ?_ m.sorted m'.sorted hp
    intro a b _ _ hab hba
    exact absurd (hab.trans hba) (lt_irrefl _)
  cases m
  cases m'
  exact (mk.injEq _ _ _ _).mpr he

theorem get?_foldl_insert (entries : List (K × V)) (m : OrderedMap K V)
    (hs : entries.Pairwise fun a b => a.1 < b.1) (k : K) :
    (entries.foldl (fun m p => m.insert p.1 p.2) m).get? k = (lookup k entries).or (m.get? k) := by
  induction entries generalizing m with
  | nil => rfl
  | cons e xs ih =>
    obtain ⟨hf,hr⟩ := pairwise_cons.mp hs
    rw [foldl_cons,ih _ hr,get?_insert]
    simp only [lookup]
    split_ifs with hk
    · have ha : lookup k xs = none := by
        rw [Option.eq_none_iff_forall_ne_some]
        intro v hv
        exact absurd hk (hf _ (lookup_mem hv)).ne
      rw [ha]
      rfl
    · rfl

theorem mem_keys_foldl_insert (entries : List (K × V)) (m : OrderedMap K V) (k : K) :
    (∃ v, (entries.foldl (fun m p => m.insert p.1 p.2) m).get? k = some v) ↔
      (∃ v, m.get? k = some v) ∨ k ∈ entries.map Prod.fst := by
  induction entries generalizing m with
  | nil => simp
  | cons e xs ih =>
    rw [foldl_cons,ih,get?_insert,map_cons,mem_cons]
    by_cases hk : e.1 = k
    · simp [hk]
    · simp [hk,Ne.symm hk]

variable {entries : List (K × V)}

/-- A collected map has only bindings of the list. -/
theorem mem_of_get?_foldl_insert
    (h : (entries.foldl (fun m p => m.insert p.1 p.2) m).get? k = some v) :
    m.get? k = some v ∨ (k, v) ∈ entries := by
  induction entries generalizing m with
  | nil => exact .inl h
  | cons e xs ih =>
    rcases ih h with hm | hr
    · rw [get?_insert] at hm
      split_ifs at hm with hk
      · rw [Option.some.injEq] at hm
        exact .inr (hk ▸ hm ▸ mem_cons_self)
      · exact .inl hm
    · exact .inr (mem_cons_of_mem _ hr)

theorem ofList_entries (m : OrderedMap K V) : ofList m.entries = m := by
  apply ext_get?
  intro k
  rw [ofList,get?_foldl_insert _ _ m.sorted,get?_empty,Option.or_none]
  rfl

/-- Collecting one binding for each key of a list. -/
theorem get?_ofList_map (f : K → V) (ks : List K) (k : K) :
    (ofList (ks.map fun k => (k, f k))).get? k = if k ∈ ks then some (f k) else none := by
  have hf : ∀ m : OrderedMap K V,
      ((ks.map fun k => (k, f k)).foldl (fun m p => m.insert p.1 p.2) m).get? k =
        if k ∈ ks then some (f k) else m.get? k := by
    induction ks with
    | nil =>
      intro m
      simp
    | cons a ks ih =>
      intro m
      rw [map_cons,foldl_cons,ih,get?_insert]
      by_cases ha : a = k
      · subst ha
        simp
      · simp [ha,Ne.symm ha]
  exact hf empty

theorem keys_sorted (m : OrderedMap K V) : m.keys.Pairwise (· < ·) := pairwise_map.mpr m.sorted

theorem keys_nodup (m : OrderedMap K V) : m.keys.Nodup := m.keys_sorted.imp ne_of_lt

theorem mem_keys : k ∈ m.keys ↔ ∃ v, m.get? k = some v := by
  simp only [keys,mem_map,Prod.exists,exists_and_right,exists_eq_right,mem_entries]

theorem mem_keys_ofList : k ∈ (ofList entries).keys ↔ k ∈ entries.map Prod.fst := by
  rw [mem_keys,ofList,mem_keys_foldl_insert]
  simp

theorem mem_values : v ∈ m.values ↔ ∃ k, m.get? k = some v := by
  simp only [values,mem_map,Prod.exists,exists_eq_right,mem_entries]

theorem contains_iff : m.contains k = true ↔ k ∈ m.keys := by
  rw [contains,Option.isSome_iff_exists,mem_keys]

theorem contains_eq_false : m.contains k = false ↔ k ∉ m.keys := by
  rw [← contains_iff,Bool.not_eq_true]

theorem mem_keys_insert {k' : K} : k' ∈ (m.insert k v).keys ↔ k' = k ∨ k' ∈ m.keys := by
  simp only [mem_keys,get?_insert]
  split_ifs with h
  · simp [h]
  · simp [Ne.symm h]

theorem eq_of_perm {m' : OrderedMap K V} (h : m.entries.Perm m'.entries) : m = m' := by
  apply ext_get?
  intro k
  apply Option.ext
  intro v
  exact (m.mem_entries.symm.trans h.mem_iff).trans m'.mem_entries

theorem perm_insert (v : V) (hk : k ∉ m.keys) :
    (m.insert k v).entries.Perm ((k, v)::m.entries) := by
  have hp : ∀ l : List (K × V), k ∉ l.map Prod.fst → (insertEntry k v l).Perm ((k, v)::l) := by
    intro l hl
    induction l with
    | nil => exact .rfl
    | cons e xs ih =>
      rw [map_cons,mem_cons,not_or] at hl
      obtain ⟨hne,hr⟩ := hl
      simp only [insertEntry]
      split_ifs with hlt heq
      · exact .rfl
      · exact absurd heq.symm hne
      · exact ((ih hr).cons e).trans (.swap _ _ _)
  exact hp m.entries hk

theorem size_erase_lt (h : k ∈ m.keys) : (m.erase k).size < m.size := by
  obtain ⟨v,hv⟩ := mem_keys.mp h
  have hm := m.mem_entries.mpr hv
  refine lt_of_le_of_ne (length_filter_le _ _) ?_
  intro he
  have ha := length_filter_eq_length_iff.mp he (k,v) hm
  simp at ha

theorem size_erase_le (m : OrderedMap K V) (k : K) : (m.erase k).size ≤ m.size :=
  length_filter_le _ _

end OrderedMap

/-- A set is the key column of a map to `Unit`. -/
abbrev OrderedSet (K : Type*) [LinearOrder K] := OrderedMap K Unit

namespace OrderedSet
variable {K : Type*} [LinearOrder K]

def insertKey (s : OrderedSet K) (k : K) : OrderedSet K := OrderedMap.insert s k ()

def extend (s : OrderedSet K) (ks : List K) : OrderedSet K := ks.foldl insertKey s

def isSubset (s t : OrderedSet K) : Bool := s.keys.all fun k => OrderedMap.contains t k

variable {s : OrderedSet K}

theorem mem_insertKey {k' : K} :
    k' ∈ (insertKey s k).keys ↔ k' = k ∨ k' ∈ s.keys := OrderedMap.mem_keys_insert

theorem mem_extend {ks : List K} : k ∈ (extend s ks).keys ↔ k ∈ ks ∨ k ∈ s.keys := by
  induction ks generalizing s with
  | nil => simp [extend]
  | cons a ks ih =>
    have h := ih (s := insertKey s a)
    simp only [extend,foldl_cons] at h ⊢
    rw [h,mem_insertKey,mem_cons]
    tauto

theorem isSubset_iff {t : OrderedSet K} : isSubset s t = true ↔ ∀ k ∈ s.keys, k ∈ t.keys := by
  simp only [isSubset,all_eq_true,OrderedMap.contains_iff]

end OrderedSet
end Cdenv
