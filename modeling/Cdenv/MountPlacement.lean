import Cdenv.RuntimePlanning

/-!
# Planned mounts

The planner compares normalized texts. What it guarantees is about paths: the workspace folder
is inside the workspace mount, a bound workspace comes from inside the local workspace, no two
mounts share a target, and none is on, above or below a target that cdenv keeps for itself.
-/
namespace Cdenv.MountPlacement
open Fallible ContainerPath Substitution RuntimePlanning List

/-- Neither path is on the way to the other. -/
def Apart (p q : ContainerPath) : Prop := ¬ p.parts <+: q.parts ∧ ¬ q.parts <+: p.parts

/-- The targets of the planned mounts, as paths. -/
structure Placed (inputs : RuntimePlanningInputs) (plan : RuntimePlan) : Prop where
  folder : plan.workspace.mount.target.parts <+: plan.workspace.folder.parts
  source : plan.workspace.mount.kind = .bind → ∃ source, plan.workspace.mount.source = some source ∧
    segments inputs.localWorkspaceFolder <+: segments source
  distinct : (plan.mounts.map (·.target.parts)).Nodup
  workspace : plan.workspace.mount.target.parts ∉ plan.mounts.map (·.target.parts)
  workspaceOwned : ∀ owned ∈ inputs.cdenvOwnedTargets, Apart plan.workspace.mount.target owned
  mountsOwned : ∀ mount ∈ plan.mounts, ∀ owned ∈ inputs.cdenvOwnedTargets, Apart mount.target owned

variable {dg : OrderedMap Text Text → List ℕ}

/-- The set of seen targets separates the mounts to come from one another and from it. -/
theorem planMounts_distinct {ctx : HostSubstitutionInputs} {wt : ContainerPath}
    {own : List ContainerPath} {i : ℕ} {ts : OrderedSet Text} {raws : List RawMount}
    {ms : List PlannedMount}
    (h : planMounts dg ctx wt own i ts raws = .ok ms) :
    (ms.map (·.target.value)).Nodup ∧ ∀ mt ∈ ms, mt.target.value ∉ ts.keys := by
  induction raws generalizing i ts ms with
  | nil =>
    cases h
    exact ⟨nodup_nil,fun _ hmo => absurd hmo not_mem_nil⟩
  | cons raw raws ih =>
    simp only [planMounts,bind_eq_ok,pure_eq_ok,require_eq_ok,Bool.not_eq_true',
      OrderedMap.contains_eq_false] at h
    obtain ⟨mt,-,-,-,-,-,-,hf,xs,hr,rfl⟩ := h
    obtain ⟨hn,hs⟩ := ih hr
    have ho : ∀ m ∈ xs, m.target.value ≠ mt.target.value := by
      intro m hm he
      exact hs m hm (OrderedSet.mem_insertKey.mpr (.inl he))
    constructor
    · rw [map_cons,nodup_cons,mem_map]
      refine ⟨?_,hn⟩
      rintro ⟨m,hm,he⟩
      exact ho m hm he
    · intro m hm
      rcases mem_cons.mp hm with rfl | hm
      · exact hf
      · intro hk
        exact hs m hm (OrderedSet.mem_insertKey.mpr (.inr hk))

theorem validateWorkspaceMount_eq_ok {m : PlannedMount} {fo : ContainerPath} {lw : HostMountSource}
    (h : validateWorkspaceMount m fo lw = .ok ()) :
    m.target.parts <+: fo.parts ∧ (m.kind = .bind → ∃ src, m.source = some src ∧
        segments lw.value <+: segments src) := by
  simp only [validateWorkspaceMount,bind_eq_ok,require_eq_ok] at h
  obtain ⟨-,hf,hk⟩ := h
  refine ⟨(pathContains_iff m.target.normal fo.normal).mp hf,?_⟩
  intro hb
  rw [hb] at hk
  simp only [bind_eq_ok,orFail_eq_ok,mapError_eq_ok,HostMountSource.parse_eq_ok,require_eq_ok] at hk
  obtain ⟨src,hs,p,hp,hc⟩ := hk
  have hw := (pathContains_iff lw.normal p.normal).mp hc
  rw [(normalizeAbsolute_segments hp).2] at hw
  exact ⟨src,hs,hw⟩

theorem planRuntime_placed (digest : OrderedMap Text Text → List ℕ) (profile : RawProfile)
    (effective : EffectiveMetadata) (inputs : RuntimePlanningInputs) (plan : RuntimePlan)
    (h : planRuntime digest profile effective inputs = .ok plan) : Placed inputs plan := by
  obtain ⟨src,hp⟩ := planRuntime_eq_ok h
  obtain ⟨hf,hb⟩ := validateWorkspaceMount_eq_ok hp.workspaceValid
  have hl : segments src.value = segments inputs.localWorkspaceFolder := by
    have hs := hp.source
    rw [planLocalSource,mapError_eq_ok,HostMountSource.parse_eq_ok] at hs
    exact (normalizeAbsolute_segments hs).2
  have hc : ∀ m ∈ plan.mounts, m.target.value ≠ plan.workspace.mount.target.value ∧
        ∀ own ∈ inputs.cdenvOwnedTargets, m.target.overlaps own = false := by
    intro m hm
    obtain ⟨_,-,-,hw,ho⟩ := forall₂_mem_right (planMounts_eq_ok hp.mounts) hm
    exact ⟨hw,ho⟩
  exact {
    folder := hf
    source := fun hk => hl ▸ hb hk
    distinct := by
      have hn := (planMounts_distinct hp.mounts).1
      exact pairwise_map.mpr ((pairwise_map.mp hn).imp fun hne he =>
        hne (ContainerPath.parts_inj.mp he))
    workspace := by
      intro hme
      obtain ⟨m,hm,he⟩ := mem_map.mp hme
      exact (hc m hm).1 (ContainerPath.parts_inj.mp he)
    workspaceOwned := fun own ho =>
      ContainerPath.overlaps_eq_false.mp (hp.workspaceOwned own ho)
    mountsOwned := fun m hm own ho =>
      ContainerPath.overlaps_eq_false.mp ((hc m hm).2 own ho) }

/-- A volume and a directory beside the workspace, with the agent's directory reserved. -/
def sampleInputs : RuntimePlanningInputs where
  localWorkspaceFolder := "/home/dev/app"
  cdenvOwnedTargets := [.sample]

def sampleMetadata : EffectiveMetadata where
  mounts := [.object .volume (some "cache") "/opt/cache",
    .string "type=bind,source=/srv/data,target=/opt/data"]

theorem planRuntime_placed_volume :
    ∃ plan, planRuntime (fun _ => []) ⟨.image ⟨"alpine",{}⟩,{}⟩ sampleMetadata
        sampleInputs = .ok plan ∧ plan.mounts.length = 2 ∧ Placed sampleInputs plan :=
  exists_ok_and (P := fun plan => plan.mounts.length = 2) (by decide +kernel) fun plan hp ho =>
    ⟨ho,planRuntime_placed (fun _ => []) _ _ _ plan hp⟩

end Cdenv.MountPlacement
