import Mathlib.Data.List.Induction
import Mathlib.Data.List.Nodup

/-!
# Lists in which later values replace earlier ones

Values arrive under keys and replace earlier ones in place. What this comes to is independent of the
intermediate lists: each key stands once, where it came first, with the value that came last.
-/
namespace Cdenv.KeyedList
open List
variable {κ α : Type*} [DecidableEq κ]

/-- A value whose key is new goes to the end of the list; one whose key is already there takes the
place of the value it has. -/
def upsert (k : κ) (v : α) : List (κ × α) → List (κ × α)
  | [] => [(k, v)]
  | entry::rest => if entry.1 = k then (entry.1, v)::rest else entry::upsert k v rest

/-- The last value that came under the key. -/
def lastOf (k : κ) (arrivals : List (κ × α)) : Option α :=
  (arrivals.filterMap fun p => if p.1 = k then some p.2 else none).getLast?

/-- Each key once, in the order of arrival, with its last value. -/
def settled (arrivals : List (κ × α)) : List (κ × α) :=
  (arrivals.map Prod.fst).eraseDups.filterMap fun k => (lastOf k arrivals).map (k, ·)

theorem lastOf_concat (k : κ) (arrivals : List (κ × α)) (p : κ × α) :
    lastOf k (arrivals++[p]) = if p.1 = k then some p.2 else lastOf k arrivals := by
  unfold lastOf
  rw [filterMap_append]
  split_ifs with hk
  all_goals simp [hk]

theorem lastOf_isSome {k : κ} {arrivals : List (κ × α)} :
    (lastOf k arrivals).isSome ↔ k ∈ arrivals.map Prod.fst := by
  unfold lastOf
  simp [Option.isSome_iff_ne_none]

variable {v : α} {l : List (κ × α)}

theorem upsert_of_not_mem {k : κ} (hk : k ∉ l.map Prod.fst) : upsert k v l = l++[(k, v)] := by
  induction l with
  | nil => rfl
  | cons e xs ih =>
    rw [map_cons,mem_cons,not_or] at hk
    unfold upsert
    rw [if_neg (Ne.symm hk.1),ih hk.2,cons_append]

/-- Where keys are not repeated, only the entry of the key changes. -/
theorem upsert_of_mem {k : κ} (hn : (l.map Prod.fst).Nodup) (hk : k ∈ l.map Prod.fst) :
    upsert k v l = l.map fun entry => if entry.1 = k then (entry.1, v) else entry := by
  induction l with
  | nil => cases hk
  | cons entry rest ih =>
    rw [map_cons,nodup_cons] at hn
    unfold upsert
    split_ifs with hen
    · have hr : rest.map (fun e => if e.1 = k then (e.1, v) else e) = rest := by
        refine (map_congr_left fun e he => ?_).trans (map_id rest)
        have hne : e.1 ≠ k := by
          rintro rfl
          exact hn.1 (hen ▸ mem_map_of_mem he)
        exact if_neg hne
      rw [map_cons,if_pos hen,hr]
    · have hr := (mem_cons.mp hk).resolve_left (Ne.symm hen)
      rw [map_cons,if_neg hen,ih hn.2 hr]

theorem eraseDups_concat (l : List κ) (k : κ) :
    (l++[k]).eraseDups = if k ∈ l then l.eraseDups else l.eraseDups++[k] := by
  rw [eraseDups_append]
  split_ifs with hk
  · simp [removeAll,hk]
  · simp [removeAll,hk,eraseDups_cons]

theorem nodup_eraseDups (l : List κ) : l.eraseDups.Nodup := by
  induction l using reverseRecOn with
  | nil => exact nodup_nil
  | append_singleton l k ih =>
    rw [eraseDups_concat]
    split_ifs with hk
    · exact ih
    · refine List.Nodup.append ih (nodup_singleton k) ?_
      simpa using hk

variable {β : Type*}

theorem eraseDups_map [DecidableEq β] {f : κ → β} (hf : Function.Injective f) (l : List κ) :
    (l.map f).eraseDups = l.eraseDups.map f := by
  induction l using reverseRecOn with
  | nil => rfl
  | append_singleton l k ih =>
    rw [map_append,map_singleton,eraseDups_concat,eraseDups_concat,ih]
    simp only [mem_map_of_injective hf]
    split_ifs
    · rfl
    · rw [map_append,map_singleton]

section

variable (arrivals : List (κ × α))
include arrivals

theorem keys_settled : (settled arrivals).map Prod.fst = (arrivals.map Prod.fst).eraseDups := by
  unfold settled
  rw [map_filterMap]
  refine (filterMap_congr fun k hk => ?_).trans filterMap_some
  obtain ⟨v,hv⟩ := Option.isSome_iff_exists.mp (lastOf_isSome.mpr (mem_eraseDups.mp hk))
  rw [hv]
  rfl

theorem values_settled : (settled arrivals).map Prod.snd =
      (arrivals.map Prod.fst).eraseDups.filterMap fun k => lastOf k arrivals := by
  unfold settled
  rw [map_filterMap]
  simp only [Option.map_map,Function.comp_def,Option.map_id']

/-- One more arrival is one upsert. -/
theorem settled_concat (p : κ × α) :
    settled (arrivals++[p]) = upsert p.1 p.2 (settled arrivals) := by
  have hke := keys_settled arrivals
  by_cases hp : p.1 ∈ arrivals.map Prod.fst
  · have hm : p.1 ∈ (settled arrivals).map Prod.fst := by
      rw [hke]
      exact mem_eraseDups.mpr hp
    rw [upsert_of_mem (hke ▸ nodup_eraseDups _) hm]
    unfold settled
    rw [map_append,map_singleton,eraseDups_concat,if_pos hp,map_filterMap]
    apply filterMap_congr
    intro k hk
    obtain ⟨v,hv⟩ := Option.isSome_iff_exists.mp (lastOf_isSome.mpr (mem_eraseDups.mp hk))
    rw [lastOf_concat,hv]
    split_ifs with hpk
    · simp [hpk]
    · simp [Ne.symm hpk]
  · have hm : p.1 ∉ (settled arrivals).map Prod.fst := by
      rw [hke]
      exact mt mem_eraseDups.mp hp
    rw [upsert_of_not_mem hm]
    unfold settled
    rw [map_append,map_singleton,eraseDups_concat,if_neg hp,filterMap_append]
    congr 1
    · apply filterMap_congr
      intro k hk
      have hne : p.1 ≠ k := fun he => hp (he ▸ mem_eraseDups.mp hk)
      rw [lastOf_concat,if_neg hne]
    · simp [lastOf_concat]

theorem foldl_upsert : arrivals.foldl (fun l p => upsert p.1 p.2 l) [] = settled arrivals := by
  induction arrivals using reverseRecOn with
  | nil => rfl
  | append_singleton arrivals p ih =>
    rw [foldl_append,ih,settled_concat,foldl_cons,foldl_nil]

end

section
variable {τ : Type*} [DecidableEq τ]

/-- The values that remain when those of equal key replace one another. -/
def survivors (key : α → κ) (values : List α) : List α :=
  (settled (values.map fun v => (key v, v))).map Prod.snd

/-- No later value has the same image. -/
def LastAt {β : Type*} (f : α → β) (values : List α) (v : α) : Prop :=
  ∃ before after, values = before++v::after ∧ ∀ w ∈ after, f w ≠ f v

variable {f : α → β}

/-- The place of a last value is after every value with its image. -/
theorem mem_of_later {bef after b a : List α} {w x : α} (hs : bef++v::after = b++x::a)
    (hl : ∀ y ∈ a, f y ≠ f x) (hw : w ∈ after) (hwx : f w = f x) : x ∈ after := by
  rcases append_eq_append_iff.mp hs with ⟨c,-,hc⟩ | ⟨c,-,hc⟩
  · cases c with
    | nil =>
      cases hc
      exact absurd hwx (hl w hw)
    | cons y c =>
      rw [cons_append,cons.injEq] at hc
      rw [hc.2]
      exact mem_append_right c mem_cons_self
  · cases c with
    | nil =>
      cases hc
      exact absurd hwx (hl w hw)
    | cons y c =>
      rw [cons_append,cons.injEq] at hc
      refine absurd hwx (hl w ?_)
      rw [hc.2]
      exact mem_append_right c (mem_cons_of_mem v hw)

variable {values : List α}

theorem LastAt.unique {w : α} (hv : LastAt f values v) (hw : LastAt f values w) (hf : f v = f w) :
    v = w := by
  obtain ⟨bef,aft,hva,hl⟩ := hv
  obtain ⟨b,a,hva',hl'⟩ := hw
  have hs := hva.symm.trans hva'
  by_contra hne
  rcases append_eq_append_iff.mp hs with ⟨c,-,hc⟩ | ⟨c,-,hc⟩
  · cases c with
    | nil =>
      rw [nil_append,cons.injEq] at hc
      exact hne hc.1
    | cons y c =>
      rw [cons_append,cons.injEq] at hc
      refine hl w ?_ hf.symm
      rw [hc.2]
      exact mem_append_right c mem_cons_self
  · cases c with
    | nil =>
      rw [nil_append,cons.injEq] at hc
      exact hne hc.1.symm
    | cons y c =>
      rw [cons_append,cons.injEq] at hc
      refine hl' v ?_ hf
      rw [hc.2]
      exact mem_append_right c mem_cons_self

theorem lastAt_concat {u : α} :
    LastAt f (values++[u]) v ↔ v = u ∨ LastAt f values v ∧ f u ≠ f v := by
  constructor
  · rintro ⟨bef,aft,hv,hl⟩
    rcases eq_nil_or_concat aft with rfl | ⟨aft,w,rfl⟩
    · have he := append_inj' hv rfl
      exact .inl (cons.inj he.2).1.symm
    · rw [concat_eq_append] at hv hl
      rw [← cons_append,← append_assoc] at hv
      obtain ⟨hi,hw⟩ := append_inj' hv rfl
      cases hw
      refine .inr ⟨⟨bef,aft,hi,?_⟩,hl u (by simp)⟩
      intro x hx
      exact hl x (mem_append_left _ hx)
  · rintro (rfl | ⟨⟨bef,aft,rfl,hl⟩,hu⟩)
    · exact ⟨values,[],rfl,nofun⟩
    · exact ⟨bef,aft++[u],by simp,forall_mem_append.mpr ⟨hl,forall_mem_singleton.mpr hu⟩⟩

theorem getLast?_filter_eq_some {f : α → τ} {t : τ} :
    (values.filter (f · = t)).getLast? = some v ↔ f v = t ∧ LastAt f values v := by
  induction values using reverseRecOn with
  | nil => simp [LastAt]
  | append_singleton values u ih =>
    rw [filter_append,lastAt_concat]
    by_cases hu : f u = t
    · simp only [hu,decide_true,filter_cons_of_pos,filter_nil]
      rw [getLast?_append_of_ne_nil _ (cons_ne_nil _ _),getLast?_singleton,Option.some.injEq]
      constructor
      · rintro rfl
        exact ⟨hu,.inl rfl⟩
      · rintro ⟨hv,rfl | ⟨-,hne⟩⟩
        · rfl
        · exact absurd hv.symm hne
    · simp only [hu,decide_false,Bool.false_eq_true,not_false_eq_true,
        filter_cons_of_neg,filter_nil,append_nil]
      rw [ih]
      constructor
      · rintro ⟨hv,hl⟩
        exact ⟨hv,.inr ⟨hl,fun he => hu (he.trans hv)⟩⟩
      · rintro ⟨hv,rfl | ⟨hl,-⟩⟩
        · exact absurd hv hu
        · exact ⟨hv,hl⟩

theorem lastOf_map (key : α → κ) (values : List α) (k : κ) :
    lastOf k (values.map fun v => (key v, v)) = (values.filter (key · = k)).getLast? := by
  unfold lastOf
  rw [filterMap_map,← filterMap_eq_filter]
  congr 1
  apply filterMap_congr
  intro v _
  simp [Option.guard]

theorem survivors_eq (key : α → κ) (values : List α) : survivors key values =
      (values.map key).eraseDups.filterMap fun k => (values.filter (key · = k)).getLast? := by
  have hk : (values.map fun v => (key v, v)).map Prod.fst = values.map key := by
    rw [map_map]
    rfl
  rw [survivors,values_settled,hk]
  simp only [lastOf_map]

/-- Keys that are told apart in the same way leave the same values. -/
theorem survivors_comp {f : κ → τ} (hf : Function.Injective f) (key : α → κ) (values : List α) :
    survivors (fun v => f (key v)) values = survivors key values := by
  have hk : values.map (fun v => f (key v)) = (values.map key).map f := by
    rw [map_map]
    rfl
  rw [survivors_eq,survivors_eq,hk,eraseDups_map hf,filterMap_map]
  apply filterMap_congr
  intro k _
  simp only [Function.comp_apply,hf.eq_iff]

theorem mem_survivors {key : α → κ} : v ∈ survivors key values ↔ LastAt key values v := by
  rw [survivors_eq,mem_filterMap]
  simp only [getLast?_filter_eq_some]
  constructor
  · rintro ⟨_,-,rfl,hl⟩
    exact hl
  · intro hl
    refine ⟨key v,?_,rfl,hl⟩
    obtain ⟨bef,aft,rfl,-⟩ := hl
    simp

theorem keys_survivors (key : α → κ) (values : List α) :
    (survivors key values).map key = (values.map key).eraseDups := by
  have hke : (settled (values.map fun v => (key v, v))).map Prod.fst =
      (values.map key).eraseDups := by
    rw [keys_settled,map_map]
    rfl
  rw [← hke,survivors,map_map]
  apply map_congr_left
  intro e he
  obtain ⟨k,-,hk⟩ := mem_filterMap.mp he
  obtain ⟨v,hv,rfl⟩ := Option.map_eq_some_iff.mp hk
  rw [lastOf_map,getLast?_filter_eq_some] at hv
  exact hv.1

theorem nodup_survivors (key : α → κ) (values : List α) : (survivors key values).Nodup := by
  apply List.Nodup.of_map key
  rw [keys_survivors]
  exact nodup_eraseDups _

/-- A list without repetition in which one value passes the test. -/
theorem filter_eq_singleton {l : List α} {p : α → Bool} (hn : l.Nodup) (hv : v ∈ l)
    (hp : p v = true) (hu : ∀ w ∈ l, p w = true → w = v) : l.filter p = [v] := by
  have hm : ∀ w ∈ l.filter p, w = v := by
    intro w hw
    rw [mem_filter] at hw
    exact hu w hw.1 hw.2
  have hle : (l.filter p).length ≤ 1 := by
    by_contra hlo
    have hlo := Nat.not_le.mp hlo
    have hfi := hm _ (getElem_mem (Nat.zero_lt_of_lt hlo))
    have hs := hm _ (getElem_mem hlo)
    have hsa := (hn.filter p).getElem_inj_iff.mp (hfi.trans hs.symm)
    omega
  have hf := mem_filter.mpr ⟨hv,hp⟩
  match hl : l.filter p with
  | [] =>
    rw [hl] at hf
    cases hf
  | [w] =>
    rw [hl,mem_singleton] at hf
    rw [hf]
  | w::x::rest =>
    rw [hl] at hle
    simp at hle

/-- Replacement by key leaves of the values with one tag the last, when keys come again exactly
where the tag does. -/
theorem filter_survivors_iff (key : α → κ) (tag : α → τ) (values : List α) (t : τ) :
    (survivors key values).filter (tag · = t) = ((values.filter (tag · = t)).getLast?).toList ↔
      ∀ bef v aft, values = bef++v::aft → tag v = t →
        ((∃ w ∈ aft, key w = key v) ↔ ∃ w ∈ aft, tag w = t) := by
  constructor
  · intro hf bef v aft hva hv
    have hne : values.filter (tag · = t) ≠ [] := by
      refine @List.ne_nil_of_mem _ v _ ?_
      simp [hva,hv]
    obtain ⟨x,hx⟩ := Option.isSome_iff_exists.mp (getLast?_isSome.mpr hne)
    rw [hx,Option.toList_some] at hf
    obtain ⟨hxt,hl⟩ := getLast?_filter_eq_some.mp hx
    have hxm : x ∈ survivors key values := by
      have hm := hf ▸ mem_singleton_self x
      exact mem_of_mem_filter hm
    constructor
    · rintro ⟨w,hw,hk⟩
      by_contra hn
      push Not at hn
      -- Without a later value of the tag this is the last one, which remains.
      have hvx : v = x := by
        refine LastAt.unique ⟨bef,aft,hva,fun y hy => ?_⟩ hl (hv.trans hxt.symm)
        rw [hv]
        exact hn y hy
      obtain ⟨b,a,hva',hla⟩ := mem_survivors.mp hxm
      have hm := mem_of_later (hva.symm.trans hva') hla hw (hvx ▸ hk)
      exact hn x hm hxt
    · rintro ⟨w,hw,hwt⟩
      by_contra hn
      push Not at hn
      have hvm : v ∈ (survivors key values).filter (tag · = t) := by
        rw [mem_filter,mem_survivors]
        exact ⟨⟨bef,aft,hva,hn⟩,by simp [hv]⟩
      rw [hf,mem_singleton] at hvm
      obtain ⟨b,a,hva',hla⟩ := hl
      have hm := mem_of_later (hva.symm.trans hva') hla hw (hwt.trans hxt.symm)
      exact hn x hm (hvm ▸ rfl)
  · intro ha
    cases hx : (values.filter (tag · = t)).getLast? with
    | none =>
      rw [getLast?_eq_none_iff,filter_eq_nil_iff] at hx
      rw [Option.toList_none,filter_eq_nil_iff]
      intro v hv
      obtain ⟨bef,aft,hva,-⟩ := mem_survivors.mp hv
      exact hx v (hva ▸ by simp)
    | some x =>
      obtain ⟨hxt,bef,aft,hva,hl⟩ := getLast?_filter_eq_some.mp hx
      rw [Option.toList_some]
      refine filter_eq_singleton (nodup_survivors key values) ?_ (by simp [hxt]) ?_
      · refine mem_survivors.mpr ⟨bef,aft,hva,?_⟩
        intro w hw hk
        obtain ⟨y,hy,hyt⟩ := (ha bef x aft hva hxt).mp ⟨w,hw,hk⟩
        exact hl y hy (hyt.trans hxt.symm)
      · intro v hv hvt
        rw [decide_eq_true_eq] at hvt
        obtain ⟨b,a,hva',hla⟩ := mem_survivors.mp hv
        refine LastAt.unique ⟨b,a,hva',?_⟩ ⟨bef,aft,hva,hl⟩ (hvt.trans hxt.symm)
        intro w hw hwv
        obtain ⟨y,hy,hyk⟩ := (ha b v a hva' hvt).mpr ⟨w,hw,hwv.trans hvt⟩
        exact hla y hy hyk

end

end Cdenv.KeyedList
