import Cdenv.FieldList
import Cdenv.RuntimePlanning

/-!
# Mount arguments and how they are read

The renderer of a planned mount, and beside it the reader it is written for. The reader is
independent of the planner. Whether a plan survives the trip is decided mount by mount, from the
mount as it was written.
-/
namespace Cdenv.MountArguments
open TextScan Fallible Substitution ContainerPath RuntimePlanning FieldList List

def kindText : MountKind → Text
  | .bind => "bind"
  | .volume => "volume"

def optionField (option : MountOption) : Field := (option.name, option.value)

def mountArgument (mount : PlannedMount) : Text :=
  "type="++kindText mount.kind ++
    (match mount.source with
      | some source => ",source="++source
      | none => []) ++
    ",target="++mount.target.value ++
    mount.options.flatMap fun option => ','::renderField (optionField option)

/-- The part of a `--mount` value that decides what is mounted where. -/
structure DockerMount where
  (kind source target : Option Text)
deriving DecidableEq

/-- Simple lowercase mapping. Besides the ASCII capitals only U+0130 and U+212A have an
ASCII lowercase, so no other character can take part in a key. -/
def lowerKey (key : Text) : Text :=
  key.map fun c => if c = '\u0130' then 'i' else if c = '\u212a' then 'k' else c.toLower

def namesKind (key : Text) : Bool := lowerKey key == "type"

def namesSource (key : Text) : Bool := isSourceKey (lowerKey key)

def namesTarget (key : Text) : Bool := isTargetKey (lowerKey key)

/-- The `--mount` grammar of the Docker command line, with case-insensitive keys, aliases and
last-assignment-wins. -/
def readMountArgument (argument : Text) : DockerMount :=
  let l := fields argument
  ⟨assigned namesKind l,assigned namesSource l,assigned namesTarget l⟩

def plannedMount (mount : PlannedMount) : DockerMount :=
  ⟨some (kindText mount.kind),mount.source,some mount.target.value⟩

def ReadsBack (mount : PlannedMount) : Prop :=
  readMountArgument (mountArgument mount) = plannedMount mount

instance (mount : PlannedMount) : Decidable (ReadsBack mount) :=
  inferInstanceAs (Decidable (_ = _))

/-- Every emitted mount argument is read as planned; none is read as a mount on or
around an owned target, and only the workspace mount lands on its target. -/
def MountsReadBack (plan : RuntimePlan) (owned : List ContainerPath) : Prop :=
  (∀ mount ∈ plan.workspace.mount::plan.mounts, ReadsBack mount) ∧
  (∀ mount ∈ plan.workspace.mount::plan.mounts,
    ∀ t ∈ (readMountArgument (mountArgument mount)).target,
      ∀ o ∈ owned, overlapsText t o.value = false) ∧
  ∀ mount ∈ plan.mounts, (readMountArgument (mountArgument mount)).target ≠
    some plan.workspace.mount.target.value

instance (plan : RuntimePlan) (owned : List ContainerPath) :
    Decidable (MountsReadBack plan owned) := by
  unfold MountsReadBack
  infer_instance

def kindKey : Text := "type"

def sourceKey : Text := "source"

def targetKey : Text := "target"

@[simp] theorem namesKind_kindKey : namesKind kindKey = true := by decide
@[simp] theorem namesKind_sourceKey : namesKind sourceKey = false := by decide
@[simp] theorem namesKind_targetKey : namesKind targetKey = false := by decide
@[simp] theorem namesSource_kindKey : namesSource kindKey = false := by decide
@[simp] theorem namesSource_sourceKey : namesSource sourceKey = true := by decide
@[simp] theorem namesSource_targetKey : namesSource targetKey = false := by decide
@[simp] theorem namesTarget_kindKey : namesTarget kindKey = false := by decide
@[simp] theorem namesTarget_sourceKey : namesTarget sourceKey = false := by decide
@[simp] theorem namesTarget_targetKey : namesTarget targetKey = true := by decide

def mountFields (mount : PlannedMount) : List Field :=
  (kindKey, some (kindText mount.kind)) ::
    ((mount.source.toList.map fun source => (sourceKey, some source)) ++
      (targetKey, some mount.target.value)::mount.options.map optionField)

theorem mountArgument_eq_render (mount : PlannedMount) :
    mountArgument mount = render (mountFields mount) := by
  have hk : "type=" = kindKey++['='] := by decide
  have hs : ",source=" = ','::(sourceKey++['=']) := by decide
  have ht : ",target=" = ','::(targetKey++['=']) := by decide
  rw [mountFields,render_cons]
  unfold mountArgument
  cases mount.source <;>
    simp only [hk,hs,ht,Option.toList_none,Option.toList_some,map_nil,map_cons,
      nil_append,append_nil,flatMap_cons,flatMap_map,append_assoc,cons_append,renderField]

/-- A mount whose texts hold no character of the grammar. -/
structure CleanMount (mount : PlannedMount) : Prop where
  source : ∀ s, mount.source = some s → ',' ∉ s
  target : ',' ∉ mount.target.value
  options : ∀ option ∈ mount.options, Clean (optionField option)

theorem clean_of_key {key val : Text} (hk : key ∈ [kindKey,sourceKey,targetKey])
    (hva : ',' ∉ val) : Clean (key, some val) := by
  have hke : ∀ k ∈ [kindKey,sourceKey,targetKey], '=' ∉ k ∧ ',' ∉ k := by decide
  obtain ⟨h₁,h₂⟩ := hke key hk
  exact ⟨h₁,h₂,fun v hv => Option.some.inj hv ▸ hva⟩

variable {mount : PlannedMount}

theorem CleanMount.fields (h : CleanMount mount) : ∀ f ∈ mountFields mount, Clean f := by
  intro f hf
  simp only [mountFields,mem_cons,mem_append,mem_map,Option.mem_toList] at hf
  rcases hf with rfl | ⟨s,hs,rfl⟩ | rfl | ⟨opt,ho,rfl⟩
  · exact clean_of_key (by simp) (by cases mount.kind <;> decide)
  · exact clean_of_key (by simp) (h.source s hs)
  · exact clean_of_key (by simp) h.target
  · exact h.options opt ho

/-- An option that assigns a planned field again must assign the planned value. -/
def Restates (isKey : Text → Bool) (options : List MountOption) (planned : Option Text) : Prop :=
  ∀ v, assigned isKey (options.map optionField) = some v → planned = some v

theorem assigned_or_eq_iff {isKey : Text → Bool} {opts : List MountOption} {planned : Option Text} :
    (assigned isKey (opts.map optionField)).or planned = planned ↔ Restates isKey opts planned := by
  unfold Restates
  cases assigned isKey (opts.map optionField) with
  | none => simp
  | some x => simp [eq_comm]

/-- Each planned value is written once and only the options come after it. -/
theorem readsBack_clean (h : CleanMount mount) :
    ReadsBack mount ↔ Restates namesKind mount.options (some (kindText mount.kind)) ∧
      Restates namesSource mount.options mount.source ∧
      Restates namesTarget mount.options (some mount.target.value) := by
  have hf : fields (mountArgument mount) = mountFields mount := by
    rw [mountArgument_eq_render]
    exact fields_render (cons_ne_nil _ _) h.fields
  rw [← assigned_or_eq_iff,← assigned_or_eq_iff,← assigned_or_eq_iff]
  simp only [ReadsBack,readMountArgument,plannedMount,hf,DockerMount.mk.injEq]
  cases hs : mount.source <;>
    simp [mountFields,hs,assigned_cons]

theorem ReadsBack.comma (h : ReadsBack mount) :
    (∀ s, mount.source = some s → ',' ∉ s) ∧ ',' ∉ mount.target.value := by
  simp only [ReadsBack,readMountArgument,plannedMount,DockerMount.mk.injEq] at h
  obtain ⟨-,hso,ht⟩ := h
  exact ⟨fun s hs => assigned_comma (hso.trans hs),assigned_comma ht⟩

theorem splitField_clean {f : Text} (h : ',' ∉ f) : Clean (splitField f) := by
  unfold splitField
  split
  · next n val hs =>
    obtain ⟨rfl,he⟩ := splitOnce_spec hs
    simp only [mem_append,mem_cons,not_or] at h
    refine ⟨fun hc => he (mem_of_mem_trim hc),fun hc => h.1 (mem_of_mem_trim hc),?_⟩
    rintro v ⟨⟩ hc
    exact h.2.2 (mem_of_mem_trim hc)
  · next hs =>
    have he := splitOnce_eq_none.mp hs
    exact ⟨fun hc => he (mem_of_mem_trim hc),fun hc => h (mem_of_mem_trim hc),
      fun v hv => nomatch hv⟩

variable {prop : Text}

/-- A field either becomes the next option, under a name, or leaves the options as they are. -/
theorem readField_options {f : Text} {acc acc' : MountFields}
    (h : readField prop acc f = .ok acc') :
    acc'.options = acc.options ∨ (splitField f).1 ≠ [] ∧
      acc'.options = acc.options++[⟨(splitField f).1,(splitField f).2⟩] := by
  simp only [readField,bind_eq_ok,require_eq_ok,Bool.and_eq_true,Bool.not_eq_true',
    isEmpty_eq_false_iff] at h
  obtain ⟨-,⟨hn,-⟩,h⟩ := h
  split_ifs at h
  · simp only [bind_eq_ok,pure_eq_ok] at h
    obtain ⟨-,-,k,-,rfl⟩ := h
    exact .inl rfl
  · simp only [bind_eq_ok,pure_eq_ok] at h
    obtain ⟨src,-,rfl⟩ := h
    exact .inl rfl
  · simp only [bind_eq_ok,pure_eq_ok] at h
    obtain ⟨t,-,rfl⟩ := h
    exact .inl rfl
  · exact .inr ⟨hn,pure_eq_ok.mp h ▸ rfl⟩

section
variable {digest : OrderedMap Text Text → List ℕ} {ctx : HostSubstitutionInputs}
variable {request : MountRequest}

theorem readStringMount_options {v : Text} {p : SubstitutionProperty}
    (h : readStringMount digest v prop p ctx = .ok request) :
    ∀ opt ∈ request.options, opt.name ≠ [] ∧ Clean (optionField opt) := by
  simp only [readStringMount,bind_eq_ok,MountFields.finish,pure_eq_ok] at h
  obtain ⟨tx,-,acc,hfo,k,-,t,-,rfl⟩ := h
  refine foldlM_invariant (I := fun acc : MountFields =>
    ∀ opt ∈ acc.options, opt.name ≠ [] ∧ Clean (optionField opt)) ?_ (by simp) hfo
  intro f hf acc acc' ha hs opt ho
  rcases readField_options hs with he | ⟨hn,he⟩
  · exact ha opt (he ▸ ho)
  · rw [he,mem_append,mem_singleton] at ho
    rcases ho with ho | rfl
    · exact ha opt ho
    · exact ⟨hn,splitField_clean (not_mem_of_mem_splitOn hf)⟩

theorem readMount_options {mount : RawMount} (h : readMount digest mount prop ctx = .ok request) :
    ∀ opt ∈ request.options, opt.name ≠ [] ∧ Clean (optionField opt) := by
  cases mount with
  | string v => exact readStringMount_options h
  | object k src t =>
    simp only [readMount,bind_eq_ok,pure_eq_ok] at h
    obtain ⟨src,-,t,-,rfl⟩ := h
    simp

end

/-- The condition on a mount as it was written: no path holds a comma, and an option
whose key is a differently spelled `type`, `source` or `target` restates the value. -/
structure Unambiguous (request : MountRequest) : Prop where
  source : ∀ s, request.source = some s → ',' ∉ s
  target : ',' ∉ request.target
  kind_restated : ∀ v, assigned namesKind (request.options.map optionField) = some v →
    v = kindText request.kind
  source_restated : ∀ v, assigned namesSource (request.options.map optionField) = some v →
    SourceNormalizes request.kind request.source (some v)
  target_restated : ∀ v, assigned namesTarget (request.options.map optionField) = some v →
    normalizeAbsolute request.target false = .ok v

theorem sourceNormalizes_unique {k : MountKind} {src a b : Option Text}
    (ha : SourceNormalizes k src a) (hb : SourceNormalizes k src b) : a = b := by
  cases k with
  | bind =>
    obtain ⟨s,p,hs,hp,rfl⟩ := ha
    obtain ⟨s',p',hs',hp',rfl⟩ := hb
    cases hs.symm.trans hs'
    cases hp.symm.trans hp'
    rfl
  | volume => exact ha.1.trans hb.1.symm

theorem sourceNormalizes_comma {k : MountKind} {src normal : Option Text}
    (h : SourceNormalizes k src normal) :
    (∀ s, normal = some s → ',' ∉ s) ↔ ∀ s, src = some s → ',' ∉ s := by
  cases k with
  | bind =>
    obtain ⟨s,p,rfl,hp,rfl⟩ := h
    simp [mem_normalizeAbsolute hp (c := ',') (by decide) (by decide)]
  | volume =>
    obtain ⟨rfl,-⟩ := h
    rfl

theorem readsBack_iff_unambiguous (h : normalizeMount request prop = .ok mount)
    (hot : ∀ opt ∈ request.options, opt.name ≠ [] ∧ Clean (optionField opt)) :
    ReadsBack mount ↔ Unambiguous request := by
  obtain ⟨hk,hop,hso,hta⟩ := normalizeMount_eq_ok h
  have hco : ',' ∈ mount.target.value ↔ ',' ∈ request.target :=
    mem_normalizeAbsolute hta (by decide) (by decide)
  have hre : Restates namesKind mount.options (some (kindText mount.kind)) ∧
      Restates namesSource mount.options mount.source ∧
      Restates namesTarget mount.options (some mount.target.value) ↔
      (∀ v, assigned namesKind (request.options.map optionField) = some v →
        v = kindText request.kind) ∧
      (∀ v, assigned namesSource (request.options.map optionField) = some v →
        SourceNormalizes request.kind request.source (some v)) ∧
      ∀ v, assigned namesTarget (request.options.map optionField) = some v →
        normalizeAbsolute request.target false = .ok v := by
    refine and_congr ?_ (and_congr ?_ ?_)
    · simp only [Restates,hop,hk,Option.some.injEq,eq_comm]
    · simp only [Restates,hop]
      refine forall₂_congr fun v _ => ⟨fun he => he ▸ hso,fun hv => ?_⟩
      exact sourceNormalizes_unique hso hv
    · simp only [Restates,hop,hta,Option.some.injEq,Except.ok.injEq]
  constructor
  · intro hr
    obtain ⟨hs,ht⟩ := hr.comma
    have hcl : CleanMount mount := ⟨hs,ht,fun o ho => (hot o (hop ▸ ho)).2⟩
    obtain ⟨h₁,h₂,h₃⟩ := hre.mp ((readsBack_clean hcl).mp hr)
    exact ⟨(sourceNormalizes_comma hso).mp hs,fun hc => ht (hco.mpr hc),h₁,h₂,h₃⟩
  · rintro ⟨hs,ht,h₁,h₂,h₃⟩
    have hcl : CleanMount mount := ⟨(sourceNormalizes_comma hso).mpr hs,
      fun hc => ht (hco.mp hc),fun o ho => (hot o (hop ▸ ho)).2⟩
    exact (readsBack_clean hcl).mpr (hre.mpr ⟨h₁,h₂,h₃⟩)

section
variable (digest : OrderedMap Text Text → List ℕ) (profile : RawProfile)
  (effective : EffectiveMetadata) (inputs : RuntimePlanningInputs)

/-- The workspace mount as written, or the default one from the two folder texts. -/
def WorkspaceUnambiguous (localSource : HostMountSource) (context : HostSubstitutionInputs) :
    Prop :=
  match writtenWorkspaceMount profile.scenario with
  | some value => ∀ request, readStringMount digest value "$.workspaceMount"
      .workspaceMount context = .ok request → Unambiguous request
  | none => ',' ∉ inputs.localWorkspaceFolder ∧
      ∀ value, folderText digest profile inputs localSource = .ok value → ',' ∉ value

/-- Every mount the planner will read is unambiguous as written. -/
def MountsUnambiguous : Prop :=
  ∀ localSource folder, planLocalSource inputs = .ok localSource →
    planFolder digest profile inputs localSource = .ok folder →
      WorkspaceUnambiguous digest profile inputs localSource
        (planningContext inputs localSource folder) ∧
      ∀ p ∈ effective.mounts.zipIdx, ∀ request,
        readMount digest p.1 (indexed "$.mounts" p.2)
          (planningContext inputs localSource folder) = .ok request → Unambiguous request

end

section
variable {digest : OrderedMap Text Text → List ℕ} {profile : RawProfile}
  {effective : EffectiveMetadata} {inputs : RuntimePlanningInputs} {plan : RuntimePlan}
  {localSource : HostMountSource}

section

variable (h : PlannedBy digest profile effective inputs localSource plan)
include h

theorem workspaceMount_readsBack :
    ReadsBack plan.workspace.mount ↔ WorkspaceUnambiguous digest profile inputs localSource
      (planningContext inputs localSource plan.workspace.folder) := by
  have hm := h.workspaceMount
  unfold planWorkspaceMount at hm
  split at hm
  · next v hv =>
    obtain ⟨request,hr,hn⟩ := bind_eq_ok.mp hm
    simp only [WorkspaceUnambiguous,hv,hr,Except.ok.injEq,forall_eq']
    exact readsBack_iff_unambiguous hn (readStringMount_options hr)
  · next hv =>
    have hl := HostMountSource.parse_eq_ok.mp (mapError_eq_ok.mp h.source)
    obtain ⟨t,hte,hp⟩ := bind_eq_ok.mp h.folder
    have hf := ContainerPath.parse_eq_ok.mp (mapError_eq_ok.mp hp)
    simp only [WorkspaceUnambiguous,hv,hte,Except.ok.injEq,forall_eq']
    rw [← Except.ok.inj hm,← mem_normalizeAbsolute hl (c := ',') (by decide) (by decide),
      ← mem_normalizeAbsolute hf (c := ',') (by decide) (by decide)]
    constructor
    · intro hr
      exact ⟨hr.comma.1 _ rfl,hr.comma.2⟩
    · rintro ⟨hs,ht⟩
      exact (readsBack_clean ⟨by simpa using hs,ht,by simp⟩).mpr (by simp [Restates,assigned])

theorem mounts_readBack : (∀ mount ∈ plan.mounts, ReadsBack mount) ↔
      ∀ p ∈ effective.mounts.zipIdx, ∀ request, readMount digest p.1 (indexed "$.mounts" p.2)
          (planningContext inputs localSource plan.workspace.folder) = .ok request →
            Unambiguous request := by
  have hm := planMounts_eq_ok h.mounts
  generalize effective.mounts.zipIdx = raws at hm
  generalize plan.mounts = mounts at hm
  induction hm with
  | nil => simp
  | cons hp hre ih =>
    obtain ⟨request,hr,hn⟩ := bind_eq_ok.mp hp.1
    have hi := readsBack_iff_unambiguous hn (readMount_options hr)
    simp only [forall_mem_cons,ih,hi,hr,Except.ok.injEq,forall_eq']

/-- A planned target keeps its distance, so an argument read as planned does too. -/
theorem mountsReadBack_iff_all : MountsReadBack plan inputs.cdenvOwnedTargets ↔
      ReadsBack plan.workspace.mount ∧ ∀ mount ∈ plan.mounts, ReadsBack mount := by
  constructor
  · rintro ⟨ha,-,-⟩
    exact forall_mem_cons.mp ha
  · intro ha
    have hr : ∀ mount ∈ plan.workspace.mount::plan.mounts,
        (readMountArgument (mountArgument mount)).target = some mount.target.value := by
      intro mount hm
      rw [forall_mem_cons.mpr ha mount hm]
      rfl
    have hc : ∀ mount ∈ plan.mounts, mount.target.value ≠ plan.workspace.mount.target.value ∧
          ∀ o ∈ inputs.cdenvOwnedTargets, mount.target.overlaps o = false := by
      intro mount hm
      obtain ⟨p,-,hp⟩ := forall₂_mem_right (planMounts_eq_ok h.mounts) hm
      exact hp.2
    refine ⟨forall_mem_cons.mpr ha,?_,?_⟩
    · intro mount hm t ht o ho
      rw [hr mount hm,Option.mem_def,Option.some.injEq] at ht
      subst ht
      rcases mem_cons.mp hm with rfl | hm
      · exact h.workspaceOwned o ho
      · exact (hc mount hm).2 o ho
    · intro mount hm he
      rw [hr mount (mem_cons_of_mem _ hm)] at he
      exact (hc mount hm).1 (Option.some.inj he)

end

/-- Every planned option has a name, and only a volume may come without a source. -/
structure NamedOptions (mount : PlannedMount) : Prop where
  options : ∀ option ∈ mount.options, option.name ≠ []
  source : mount.kind = .bind → mount.source.isSome = true

theorem normalizeMount_named {mount : PlannedMount} (h : normalizeMount request prop = .ok mount)
    (hot : ∀ opt ∈ request.options, opt.name ≠ [] ∧ Clean (optionField opt)) :
    NamedOptions mount := by
  obtain ⟨hk,hop,hs,-⟩ := normalizeMount_eq_ok h
  refine ⟨fun opt ho => (hot opt (hop ▸ ho)).1,fun hb => ?_⟩
  rw [← hk,hb] at hs
  obtain ⟨s,p,-,-,hso⟩ := hs
  rw [hso]
  rfl

theorem plannedMounts_named (h : PlannedBy digest profile effective inputs localSource plan) :
    ∀ mount ∈ plan.workspace.mount::plan.mounts, NamedOptions mount := by
  intro mount hm
  rcases mem_cons.mp hm with rfl | hm
  · have hmo := h.workspaceMount
    unfold planWorkspaceMount at hmo
    split at hmo
    · obtain ⟨request,hr,hn⟩ := bind_eq_ok.mp hmo
      exact normalizeMount_named hn (readStringMount_options hr)
    · rw [← Except.ok.inj hmo]
      exact ⟨by simp,fun _ => rfl⟩
  · obtain ⟨p,-,hp⟩ := forall₂_mem_right (planMounts_eq_ok h.mounts) hm
    obtain ⟨request,hr,hn⟩ := bind_eq_ok.mp hp.1
    exact normalizeMount_named hn (readMount_options hr)

/-- The emitted mount arguments mean what was planned exactly when every mount was
written unambiguously. -/
theorem mountArguments_read_back_iff (h : planRuntime digest profile effective inputs = .ok plan) :
    MountsReadBack plan inputs.cdenvOwnedTargets ↔
      MountsUnambiguous digest profile effective inputs := by
  obtain ⟨localSource,hp⟩ := planRuntime_eq_ok h
  rw [mountsReadBack_iff_all hp,workspaceMount_readsBack hp,mounts_readBack hp]
  constructor
  · intro ha src fo hs hf
    cases hp.source.symm.trans hs
    cases hp.folder.symm.trans hf
    exact ha
  · intro ha
    exact ha localSource _ hp.source hp.folder

end

def sampleProfile : RawProfile := ⟨.image ⟨"alpine",{}⟩,{}⟩

def sampleMetadata (mount : String) : EffectiveMetadata := { mounts := [.string mount.toList] }

def sampleInputs : RuntimePlanningInputs where
  localWorkspaceFolder := "/home/dev/app"
  cdenvOwnedTargets := [.sample]

theorem mountArguments_read_back_readonly : ∃ plan, planRuntime (fun _ => []) sampleProfile
        (sampleMetadata "type=volume,source=data,target=/data,readonly") sampleInputs = .ok plan ∧
      MountsReadBack plan sampleInputs.cdenvOwnedTargets ∧
      MountsUnambiguous (fun _ => []) sampleProfile
        (sampleMetadata "type=volume,source=data,target=/data,readonly") sampleInputs := by
  refine exists_ok_and (P := fun plan => MountsReadBack plan sampleInputs.cdenvOwnedTargets)
    (by decide +kernel) fun plan hp hr => ?_
  exact ⟨hr,(mountArguments_read_back_iff hp).mp hr⟩

/-- A key in another case escapes the planner and is obeyed by the reader: the mount
lands on the reserved directory. -/
theorem mountArguments_cased_key : ∃ plan, planRuntime (fun _ => []) sampleProfile
        (sampleMetadata "type=volume,source=data,target=/data,Target=/opt/cdenv") sampleInputs =
          .ok plan ∧
      ¬ MountsReadBack plan sampleInputs.cdenvOwnedTargets :=
  exists_ok_and (by decide +kernel) fun _ _ hr => hr

end Cdenv.MountArguments
