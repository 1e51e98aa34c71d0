import Cdenv.MetadataMerge
import Cdenv.RuntimePlanning
import Mathlib.Data.List.Perm.Subperm

/-!
# Merged mounts

The merge keeps one mount for each target as it is written; the planner compares targets after
substitution and normalization. The two agree when the texts come again exactly where the
targets do, and then the last contribution of a target is the mount that is planned.
-/
namespace Cdenv.MergedMounts
open Option
open TextScan Fallible KeyedList ContainerPath Substitution List
open RuntimePlanning MetadataMerge

def contributed (metadata : List ImageMetadata) (repository : RawProfile) : List RawMount :=
  (contributions metadata repository).flatMap (·.common.mounts)

def duplicated (property : Text) : PlanningError :=
  failure property .mountConflict "additional mount target is duplicated"

section
variable (digest : OrderedMap Text Text → List ℕ)

/-- What the additional mounts are substituted with, once the workspace folder is planned. -/
def mountContext (profile : RawProfile) (inputs : RuntimePlanningInputs) :
    Except PlanningError HostSubstitutionInputs := do
  let localSource ← planLocalSource inputs
  let folder ← planFolder digest profile inputs localSource
  return planningContext inputs localSource folder

def plannedMount (context : HostSubstitutionInputs) (mount : RawMount) : Option PlannedMount :=
  (parseMount digest mount "$.mounts" context).toOption

def plannedTarget (context : HostSubstitutionInputs) (mount : RawMount) : Option Text :=
  (plannedMount digest context mount).map (·.target.value)

def sharing (metadata : List ImageMetadata) (repository : RawProfile)
    (context : HostSubstitutionInputs) (target : Text) : List RawMount :=
  (contributed metadata repository).filter (plannedTarget digest context · = some target)

/-- Of several contributed mounts of one target the last is merged and planned, alone, and no
target is reported twice. -/
structure LastMountWins (metadata : List ImageMetadata) (repository : RawProfile)
    (effective : EffectiveMetadata) (inputs : RuntimePlanningInputs) : Prop where
  merged : ∀ context, mountContext digest repository inputs = .ok context →
    ∀ target, 2 ≤ (sharing digest metadata repository context target).length →
      effective.mounts.filter (plannedTarget digest context · = some target) =
        (sharing digest metadata repository context target).getLast?.toList
  planned : ∀ context, mountContext digest repository inputs = .ok context →
    ∀ target, 2 ≤ (sharing digest metadata repository context target).length →
      ∀ plan, planRuntime digest repository effective inputs = .ok plan →
        ∃ mount, (sharing digest metadata repository context target).getLast? = some mount ∧
          plan.mounts.filter (·.target.value = target) = (plannedMount digest context mount).toList
  accepted : ∀ property,
    planRuntime digest repository effective inputs ≠ .error (duplicated property)

/-- Among mounts that share a target, a written target comes again exactly where the target
does. -/
def WrittenAlike (metadata : List ImageMetadata) (repository : RawProfile)
    (inputs : RuntimePlanningInputs) : Prop :=
  ∀ context, mountContext digest repository inputs = .ok context →
    ∀ target, 2 ≤ (sharing digest metadata repository context target).length →
      ∀ before mount after, contributed metadata repository = before++mount::after →
        plannedTarget digest context mount = some target →
          ((∃ later ∈ after, mountTarget later = mountTarget mount) ↔
            ∃ later ∈ after, plannedTarget digest context later = some target)

end

variable {source : Text} {mounts next : List (Text × RawMount)} {mount : RawMount}

theorem mergeMount_eq_ok (h : mergeMount source mounts mount = .ok next) :
    ∃ t, mountTarget mount = some t ∧ next = upsert t mount mounts := by
  simp only [mergeMount,bind_eq_ok,orFail_eq_ok,pure_eq_ok] at h
  obtain ⟨t,ht,rfl⟩ := h
  exact ⟨t,ht,rfl⟩

def mountKey (mount : RawMount) : Text := (mountTarget mount).getD []

def mergeKeyed (mounts : List (Text × RawMount)) (mount : RawMount) : List (Text × RawMount) :=
  upsert (mountKey mount) mount mounts

theorem mergeMount_eq_mergeKeyed (h : mergeMount source mounts mount = .ok next) :
    next = mergeKeyed mounts mount := by
  obtain ⟨t,ht,rfl⟩ := mergeMount_eq_ok h
  rw [mergeKeyed,mountKey,ht,getD_some]

theorem foldlM_mergeMount {before aft : List (Text × RawMount)} {mounts : List RawMount}
    (h : mounts.foldlM (mergeMount source) before = .ok aft) :
    aft = mounts.foldl mergeKeyed before :=
  foldlM_project (p := id) (fun _ _ _ hs => mergeMount_eq_mergeKeyed hs) h

variable {md : List ImageMetadata} {repo : RawProfile} {eff : EffectiveMetadata}

theorem merged_mounts (h : mergeImageMetadata md repo = .ok eff) :
    eff.mounts = survivors mountKey (contributed md repo) := by
  obtain ⟨s,hr,rfl⟩ := mergeImageMetadata_eq_ok.mp h
  have hm : s.mounts = (contributions md repo).foldl
        (fun mounts c => c.common.mounts.foldl mergeKeyed mounts) [] := by
    refine foldlM_project (p := Merging.mounts) (fun bef c next hn => ?_) hr
    obtain ⟨mounts,hreq,hf,rfl⟩ := mergeContribution_eq_ok hn
    exact foldlM_mergeMount hf
  change s.mounts.map Prod.snd = _
  rw [hm,← foldl_flatMap,survivors,← foldl_upsert,foldl_map]
  rfl

theorem mountTarget_isSome (h : mergeImageMetadata md repo = .ok eff)
    (hm : mount ∈ contributed md repo) :
    (mountTarget mount).isSome := by
  obtain ⟨s,hr,rfl⟩ := mergeImageMetadata_eq_ok.mp h
  obtain ⟨c,hc,hm⟩ := mem_flatMap.mp hm
  refine foldlM_accepts (Q := fun c => ∀ mount ∈ c.common.mounts, (mountTarget mount).isSome)
    (fun bef c next hn => ?_) hr c hc mount hm
  obtain ⟨mounts,hreq,hf,rfl⟩ := mergeContribution_eq_ok hn
  refine foldlM_accepts (fun _ m _ hs => ?_) hf
  obtain ⟨t,ht,-⟩ := mergeMount_eq_ok hs
  rw [ht,isSome_some]

section
variable {dg : OrderedMap Text Text → List ℕ} {context : HostSubstitutionInputs}
variable {p q : Text}

theorem immediateSubstitution_property {sub : SubstitutionProperty} {v r : Text}
    (h : immediateSubstitution dg p sub v context = .ok r) :
    immediateSubstitution dg q sub v context = .ok r := by
  unfold immediateSubstitution at h ⊢
  cases hs : substituteHost dg sub v context with
  | error e =>
    rw [hs] at h
    cases h
  | ok d =>
    rw [hs] at h
    exact h

theorem readField_property {fs next : MountFields} {f : Text}
    (h : readField p fs f = .ok next) : readField q fs f = .ok next := by
  unfold readField at h ⊢
  simp only [bind_eq_ok,require_eq_ok] at h ⊢
  obtain ⟨u,ha,h⟩ := h
  refine ⟨u,ha,?_⟩
  split_ifs at h ⊢ with hty hs ht
  · simpa only [bind_eq_ok,require_eq_ok,orFail_eq_ok] using h
  · simpa only [bind_eq_ok,setOnce,require_eq_ok,orFail_eq_ok] using h
  · simpa only [bind_eq_ok,setOnce,require_eq_ok,orFail_eq_ok] using h
  · exact h

theorem foldlM_readField_property {pcs : List Text} {fs next : MountFields}
    (h : pcs.foldlM (readField p) fs = .ok next) :
    pcs.foldlM (readField q) fs = .ok next := by
  induction pcs generalizing fs with
  | nil => exact h
  | cons pc pcs ih =>
    rw [foldlM_cons,bind_eq_ok] at h ⊢
    obtain ⟨mid,hp,hr⟩ := h
    exact ⟨mid,readField_property hp,ih hr⟩

variable {mount : RawMount} {request : MountRequest}

theorem readMount_property (h : readMount dg mount p context = .ok request) :
    readMount dg mount q context = .ok request := by
  cases mount with
  | string v =>
    simp only [readMount,readStringMount,bind_eq_ok] at h ⊢
    obtain ⟨tx,ht,fs,hf,hfi⟩ := h
    refine ⟨tx,immediateSubstitution_property ht,fs, foldlM_readField_property hf,?_⟩
    simpa only [MountFields.finish,bind_eq_ok,orFail_eq_ok] using hfi
  | object k source t =>
    simp only [readMount,bind_eq_ok] at h ⊢
    obtain ⟨source',hs,t',hta,hr⟩ := h
    refine ⟨source',?_,t',immediateSubstitution_property hta,hr⟩
    cases source with
    | none => exact hs
    | some v =>
      obtain ⟨tx,ht,hso⟩ := bind_eq_ok.mp hs
      exact bind_eq_ok.mpr ⟨tx,immediateSubstitution_property ht,hso⟩

theorem normalizeMount_property {mount : PlannedMount} (h : normalizeMount request p = .ok mount) :
    normalizeMount request q = .ok mount := by
  simp only [normalizeMount,bind_eq_ok,mapError_eq_ok] at h ⊢
  obtain ⟨source,hs,ht⟩ := h
  refine ⟨source,?_,ht⟩
  cases hk : request.kind with
  | bind =>
    rw [hk] at hs
    simpa only [normalizeSource,bind_eq_ok,orFail_eq_ok,mapError_eq_ok] using hs
  | volume =>
    rw [hk] at hs
    simpa only [normalizeSource,bind_eq_ok,require_eq_ok] using hs

variable {planned : PlannedMount}

theorem parseMount_property (h : parseMount dg mount p context = .ok planned) :
    parseMount dg mount q context = .ok planned := by
  obtain ⟨request,hr,hn⟩ := bind_eq_ok.mp h
  exact bind_eq_ok.mpr ⟨request,readMount_property hr,normalizeMount_property hn⟩

theorem plannedMount_eq_some (h : parseMount dg mount p context = .ok planned) :
    plannedMount dg context mount = some planned := by
  unfold plannedMount
  rw [parseMount_property h]
  rfl

/-- Not a conflict between mounts. -/
def NoConflict (e : PlanningError) : Prop := e.kind ≠ .mountConflict

theorem fails_immediateSubstitution (prop : Text) (sub : SubstitutionProperty) (v : Text) :
    Fails NoConflict (immediateSubstitution dg prop sub v context) :=
  (Fails.mapError fun _ => nofun).map

theorem fails_setOnce (cur v : Option Text) (prop : Text) (msg : String) :
    Fails NoConflict (setOnce cur v prop msg) :=
  (Fails.orFail nofun).bind fun _ _ => (Fails.require nofun).bind fun _ _ => .ok _

theorem fails_readField (prop : Text) (fs : MountFields) (f : Text) :
    Fails NoConflict (readField prop fs f) := by
  refine (Fails.require nofun).bind fun _ _ => ?_
  split_ifs
  · exact (Fails.require nofun).bind fun _ _ => (Fails.orFail nofun).bind fun _ _ => .ok _
  · exact (fails_setOnce _ _ _ _).bind fun _ _ => .ok _
  · exact (fails_setOnce _ _ _ _).bind fun _ _ => .ok _
  · exact .ok _

theorem fails_readStringMount (v prop : Text) (sub : SubstitutionProperty) :
    Fails NoConflict (readStringMount dg v prop sub context) := by
  refine (fails_immediateSubstitution _ _ _).bind fun t _ => ?_
  refine (Fails.foldlM fun fs f => fails_readField prop fs f).bind fun fs _ => ?_
  exact (Fails.orFail nofun).bind fun _ _ => (Fails.orFail nofun).bind fun _ _ => .ok _

theorem fails_normalizeMount (request : MountRequest) (prop : Text) :
    Fails NoConflict (normalizeMount request prop) := by
  refine Fails.bind ?_ fun _ _ => (Fails.mapError fun _ => nofun).bind fun _ _ => .ok _
  cases request.kind with
  | bind =>
    exact (Fails.orFail nofun).bind fun _ _ => (Fails.mapError fun _ => nofun).bind fun _ _ => .ok _
  | volume => exact (Fails.require nofun).bind fun _ _ => .ok _

theorem fails_parseMount (mount : RawMount) (prop : Text) :
    Fails NoConflict (parseMount dg mount prop context) := by
  refine Fails.bind ?_ fun request _ => fails_normalizeMount request prop
  cases mount with
  | string v => exact fails_readStringMount v prop .mount
  | object k source t =>
    refine Fails.bind ?_ fun _ _ => (fails_immediateSubstitution _ _ _).bind fun _ _ => .ok _
    cases source with
    | none => exact .ok _
    | some v => exact (fails_immediateSubstitution _ _ _).bind fun _ _ => .ok _

theorem fails_rejectOwnedTarget (t : ContainerPath) (own : List ContainerPath)
    (prop : Text) : Fails NoConflict (rejectOwnedTarget t own prop) :=
  Fails.require nofun

theorem fails_planFolder (prof : RawProfile) (inputs : RuntimePlanningInputs)
    (src : HostMountSource) :
    Fails NoConflict (planFolder dg prof inputs src) := by
  refine Fails.bind ?_ fun _ _ => Fails.mapError fun _ => nofun
  exact (Fails.require nofun).bind fun _ _ => fails_immediateSubstitution _ _ _

theorem fails_planWorkspaceMount (prof : RawProfile) (src : HostMountSource) (fo : ContainerPath) :
    Fails NoConflict (planWorkspaceMount dg prof src fo context) := by
  unfold planWorkspaceMount
  cases writtenWorkspaceMount prof.scenario with
  | none => exact .ok _
  | some v =>
    exact (fails_readStringMount _ _ _).bind fun request _ => fails_normalizeMount request _

theorem fails_validateWorkspaceMount (mount : PlannedMount) (fo : ContainerPath)
    (lw : HostMountSource) :
    Fails NoConflict (validateWorkspaceMount mount fo lw) := by
  refine (Fails.require nofun).bind fun _ _ => ?_
  cases mount.kind with
  | volume => exact .ok _
  | bind =>
    exact (Fails.orFail nofun).bind fun _ _ =>
      (Fails.mapError fun _ => nofun).bind fun _ _ => Fails.require nofun

theorem fails_planUser (prop : String) (sub : SubstitutionProperty) (msg : String) (raw : Text) :
    Fails NoConflict (planUser dg prop sub msg raw context) :=
  (fails_immediateSubstitution _ _ _).bind fun _ _ => Fails.orFail nofun

theorem fails_planEnvironment (eff : EffectiveMetadata) :
    Fails NoConflict (planEnvironment dg eff context) := by
  refine Fails.bind (Fails.foldlM fun _ _ => ?_) fun _ _ =>
    Fails.bind (Fails.foldlM fun _ _ => ?_) fun _ _ => .ok _
  · exact (Fails.require nofun).bind fun _ _ =>
      (fails_immediateSubstitution _ _ _).bind fun _ _ => .ok _
  · exact (Fails.require nofun).bind fun _ _ => (Fails.mapError fun _ => nofun).bind fun _ _ => .ok _

theorem fails_validateRuntimeStrings (vs : List Text) (par : Text) :
    Fails NoConflict (validateRuntimeStrings vs par) := by
  unfold validateRuntimeStrings
  cases vs.findIdx? fun value => value.isEmpty || value.any isControl with
  | none => exact .ok _
  | some i =>
    intro e he
    cases he
    exact nofun

/-- A fact that only a repeated target can be asked for. -/
def IfDuplicated (P : Prop) (e : PlanningError) : Prop := (∃ property, e = duplicated property) → P

theorem NoConflict.ifDuplicated {P : Prop} {e : PlanningError} (h : NoConflict e) :
    IfDuplicated P e := by
  rintro ⟨prop,rfl⟩
  exact absurd rfl h

/-- Two of the mounts, or one of them and a seen one, have one target. -/
def Repeats (digest : OrderedMap Text Text → List ℕ) (context : HostSubstitutionInputs)
    (targets : OrderedSet Text) (raws : List RawMount) : Prop :=
  ∃ before raw after target, raws = before++raw::after ∧
    plannedTarget digest context raw = some target ∧
    (target ∈ targets.keys ∨ ∃ earlier ∈ before, plannedTarget digest context earlier = some target)

variable {raws : List RawMount}

theorem fails_planMounts {wt : ContainerPath} {own : List ContainerPath} {i : ℕ}
    {ts : OrderedSet Text} :
    Fails (IfDuplicated (Repeats dg context ts raws)) (planMounts dg context wt own i ts raws) := by
  induction raws generalizing i ts with
  | nil => exact .ok _
  | cons raw raws ih =>
    refine Fails.bind (fun e he => (fails_parseMount raw _ e he).ifDuplicated) fun mount hmo => ?_
    have ht : plannedTarget dg context raw = some mount.target.value := by
      rw [plannedTarget,plannedMount_eq_some hmo,map_some]
    refine Fails.bind (Fails.require ?_) fun _ _ =>
      Fails.bind (fun e he => (fails_rejectOwnedTarget _ _ _ e he).ifDuplicated) fun _ _ => ?_
    · rintro ⟨prop,hs⟩
      simp [duplicated,RuntimePlanning.failure] at hs
    · by_cases hse : mount.target.value ∈ ts.keys
      · intro e _ _
        exact ⟨[],raw,raws,_,rfl,ht,.inl hse⟩
      · rw [OrderedMap.contains_eq_false.mpr hse]
        refine Fails.bind (.ok _) fun _ _ => Fails.bind ?_ fun _ _ => .ok _
        intro e he hd
        obtain ⟨bef,again,aft,t,rfl,ha,hea⟩ := ih e he hd
        refine ⟨raw::bef,again,aft,t,rfl,ha,?_⟩
        rcases hea with hk | ⟨earlier,hm,hs⟩
        · rcases OrderedSet.mem_insertKey.mp hk with rfl | hk
          · exact .inr ⟨raw,mem_cons_self,ht⟩
          · exact .inl hk
        · exact .inr ⟨earlier,mem_cons_of_mem _ hm,hs⟩

theorem fails_planRuntime (prof : RawProfile) (eff : EffectiveMetadata)
    (inputs : RuntimePlanningInputs) :
    Fails (IfDuplicated (∃ context, mountContext dg prof inputs = .ok context ∧
        Repeats dg context .empty eff.mounts))
      (planRuntime dg prof eff inputs) := by
  have clear {α : Type} {x : Except PlanningError α} (hx : Fails NoConflict x) :
      Fails (IfDuplicated (∃ context, mountContext dg prof inputs = .ok context ∧
        Repeats dg context .empty eff.mounts)) x :=
    fun e he => (hx e he).ifDuplicated
  refine Fails.bind (clear (Fails.mapError fun _ => nofun)) fun src hl => ?_
  refine (clear (fails_planFolder _ _ _)).bind fun fo hf => ?_
  refine (clear (fails_planWorkspaceMount _ _ _)).bind fun mount _ => ?_
  refine (clear (fails_validateWorkspaceMount _ _ _)).bind fun _ _ => ?_
  refine (clear (fails_rejectOwnedTarget _ _ _)).bind fun _ _ => ?_
  refine Fails.bind ?_ fun _ _ => ?_
  · intro e he hd
    refine ⟨planningContext inputs src fo,?_,fails_planMounts e he hd⟩
    exact bind_eq_ok.mpr ⟨src,hl,bind_eq_ok.mpr ⟨fo,hf,rfl⟩⟩
  · refine (clear (fails_planUser _ _ _ _)).bind fun _ _ => ?_
    refine (clear (fails_planUser _ _ _ _)).bind fun _ _ => ?_
    refine (clear (fails_planEnvironment _)).bind fun _ _ => ?_
    refine (clear (fails_validateRuntimeStrings _ _)).bind fun _ _ => ?_
    exact (clear (fails_validateRuntimeStrings _ _)).bind fun _ _ => .ok _

end

section
variable {dg : OrderedMap Text Text → List ℕ} {inputs : RuntimePlanningInputs}
  {context : HostSubstitutionInputs}

theorem planRuntime_mounts {prof : RawProfile} {pl : RuntimePlan}
    (hc : mountContext dg prof inputs = .ok context)
    (hpl : planRuntime dg prof eff inputs = .ok pl) :
    List.Forall₂ (fun raw mount => plannedMount dg context raw = some mount)
      eff.mounts pl.mounts := by
  obtain ⟨src,hby⟩ := planRuntime_eq_ok hpl
  obtain ⟨src',hl,fo,hf,rfl⟩ : ∃ l, planLocalSource inputs = .ok l ∧
      ∃ f, planFolder dg prof inputs l = .ok f ∧ planningContext inputs l f = context := by
    simpa only [mountContext,bind_eq_ok,pure_eq_ok] using hc
  cases hby.source.symm.trans hl
  cases hby.folder.symm.trans hf
  have hp := planMounts_eq_ok hby.mounts
  have hr : eff.mounts = (eff.mounts.zipIdx 0).map Prod.fst := by
    rw [zipIdx_map_fst]
  rw [hr,forall₂_map_left_iff]
  exact hp.imp fun p mount h => plannedMount_eq_some h.1

theorem filter_planned {mounts : List PlannedMount} (t : Text)
    (h : List.Forall₂ (fun raw mount => plannedMount dg context raw = some mount) raws mounts) :
    List.Forall₂ (fun raw mount => plannedMount dg context raw = some mount)
      (raws.filter (plannedTarget dg context · = some t))
      (mounts.filter (·.target.value = t)) := by
  induction h with
  | nil => exact .nil
  | @cons raw mount raws mounts hr _ ih =>
    have ht : plannedTarget dg context raw = some mount.target.value := by
      rw [plannedTarget,hr,map_some]
    by_cases hs : mount.target.value = t
    · rw [filter_cons_of_pos (by simp [ht,hs]),filter_cons_of_pos (by simp [hs])]
      exact .cons hr ih
    · rw [filter_cons_of_neg (by simp [ht,hs]),filter_cons_of_neg (by simp [hs])]
      exact ih

/-- A repeated target of the merged mounts is one that several contributions share, and its
mounts are not one. -/
theorem two_le_of_repeats (h : mergeImageMetadata md repo = .ok eff)
    (hre : Repeats dg context .empty eff.mounts) :
    ∃ target, 2 ≤ (sharing dg md repo context target).length ∧
      2 ≤ (eff.mounts.filter (plannedTarget dg context · = some target)).length := by
  obtain ⟨bef,raw,aft,target,hmo,hr,hk | ⟨earlier,he,hsa⟩⟩ := hre
  · cases hk
  · have hs : List.Sublist [earlier,raw]
        (eff.mounts.filter (plannedTarget dg context · = some target)) := by
      have hf : [earlier].Sublist (bef.filter (plannedTarget dg context · = some target)) := by
        rw [singleton_sublist,mem_filter]
        exact ⟨he,by simp [hsa]⟩
      rw [hmo,filter_append,filter_cons_of_pos (by simp [hr])]
      exact hf.append ((nil_sublist _).cons_cons raw)
    have hsh : eff.mounts.filter (plannedTarget dg context · = some target) ⊆
        sharing dg md repo context target := by
      intro mount hm
      rw [mem_filter,merged_mounts h] at hm
      obtain ⟨b,a,hc,-⟩ := mem_survivors.mp hm.1
      refine mem_filter.mpr ⟨?_,hm.2⟩
      rw [hc]
      exact mem_append_right b mem_cons_self
    have hn : (eff.mounts.filter (plannedTarget dg context · = some target)).Nodup := by
      rw [merged_mounts h]
      exact (nodup_survivors mountKey _).filter _
    have hl := (subperm_of_subset hn hsh).length_le
    exact ⟨target,hs.length_le.trans hl,hs.length_le⟩

end

theorem mountKey_eq_iff (h : mergeImageMetadata md repo = .ok eff)
    {a b : RawMount} (ha : a ∈ contributed md repo)
    (hb : b ∈ contributed md repo) :
    mountTarget a = mountTarget b ↔ mountKey a = mountKey b := by
  obtain ⟨s,hs⟩ := isSome_iff_exists.mp (mountTarget_isSome h ha)
  obtain ⟨t,ht⟩ := isSome_iff_exists.mp (mountTarget_isSome h hb)
  simp [mountKey,hs,ht]

/-- Written and planned targets single out the same mounts exactly when the last contribution
of every shared target is the one that is planned. -/
theorem lastMountWins_iff (digest : OrderedMap Text Text → List ℕ)
    (metadata : List ImageMetadata) (repository : RawProfile) (effective : EffectiveMetadata)
    (inputs : RuntimePlanningInputs)
    (h : mergeImageMetadata metadata repository = .ok effective) :
    LastMountWins digest metadata repository effective inputs ↔
      WrittenAlike digest metadata repository inputs := by
  have hme : ∀ context t, (effective.mounts.filter (plannedTarget digest context · = some t) =
          (sharing digest metadata repository context t).getLast?.toList ↔
        ∀ bef mount aft, contributed metadata repository = bef++mount::aft →
          plannedTarget digest context mount = some t →
            ((∃ lt ∈ aft, mountTarget lt = mountTarget mount) ↔
              ∃ lt ∈ aft, plannedTarget digest context lt = some t)) := by
    intro context t
    rw [merged_mounts h,sharing,filter_survivors_iff]
    refine forall_congr' fun bef => forall_congr' fun mount => forall_congr' fun aft =>
      forall_congr' fun hsp => imp_congr_right fun _ => iff_congr ?_ Iff.rfl
    refine exists_congr fun lt => and_congr_right fun hl => (mountKey_eq_iff h ?_ ?_).symm
    · simp [hsp,hl]
    · simp [hsp]
  constructor
  · intro hw context hc t hs
    exact (hme context t).mp (hw.merged context hc t hs)
  · intro ha
    have hm : ∀ context, mountContext digest repository inputs = .ok context →
        ∀ t, 2 ≤ (sharing digest metadata repository context t).length →
          effective.mounts.filter (plannedTarget digest context · = some t) =
            (sharing digest metadata repository context t).getLast?.toList := by
      intro context hc t hs
      exact (hme context t).mpr (ha context hc t hs)
    refine ⟨hm,?_,?_⟩
    · intro context hc t hs pl hp
      have hf := filter_planned t (planRuntime_mounts hc hp)
      rw [hm context hc t hs] at hf
      have hne : sharing digest metadata repository context t ≠ [] :=
        ne_nil_of_length_pos (by omega)
      obtain ⟨mount,hmo⟩ := isSome_iff_exists.mp (getLast?_isSome.mpr hne)
      rw [hmo,toList_some] at hf
      obtain ⟨planned,xs,hpl,hr,heq⟩ := forall₂_cons_left_iff.mp hf
      rw [forall₂_nil_left_iff] at hr
      exact ⟨mount,hmo,by rw [heq,hr,hpl,toList_some]⟩
    · intro prop he
      obtain ⟨context,hc,hre⟩ := fails_planRuntime repository effective inputs _ he ⟨prop,rfl⟩
      obtain ⟨t,hs,ht⟩ := two_le_of_repeats h hre
      rw [hm context hc t hs] at ht
      have ho : (sharing digest metadata repository context t).getLast?.toList.length ≤ 1 :=
        length_toList_le
      omega

/-- A Feature and the repository put volumes on one directory. -/
def sampleFeature : ImageMetadata where
  source := "feature"
  common := { mounts := [.object .volume (some "cache") "/data"] }

def sampleRepository (target : String) : RawProfile where
  scenario := .image { image := "alpine" }
  common := { mounts := [.object .volume (some "data") target.toList] }

def sampleInputs : RuntimePlanningInputs where
  localWorkspaceFolder := "/home/dev/app"

theorem lastMountWins_sameText : mergeImageMetadata [sampleFeature] (sampleRepository "/data") =
        .ok { mounts := [.object .volume (some "data") "/data"] } ∧
      (LastMountWins (fun _ => []) [sampleFeature] (sampleRepository "/data")
          { mounts := [.object .volume (some "data") "/data"] } sampleInputs ↔
        WrittenAlike (fun _ => []) [sampleFeature] (sampleRepository "/data") sampleInputs) :=
  ⟨rfl,lastMountWins_iff _ _ _ _ _ rfl⟩

/-- A trailing slash keeps both mounts, and the planner refuses the second. -/
theorem lastMountWins_trailingSlash :
    ∃ effective, mergeImageMetadata [sampleFeature] (sampleRepository "/data/") = .ok effective ∧
      planRuntime (fun _ => []) (sampleRepository "/data/") effective sampleInputs =
        .error (duplicated "$.mounts[1]") ∧
      ¬ LastMountWins (fun _ => []) [sampleFeature] (sampleRepository "/data/") effective
        sampleInputs := by
  have he : planRuntime (fun _ => []) (sampleRepository "/data/")
      { mounts := [.object .volume (some "cache") "/data",
        .object .volume (some "data") "/data/"] } sampleInputs =
          .error (duplicated "$.mounts[1]") := by
    rfl
  exact ⟨_,rfl,he,fun hw => hw.accepted _ he⟩

end Cdenv.MergedMounts
