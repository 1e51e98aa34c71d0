import Cdenv.FeatureModel
import Cdenv.Fallible
import Cdenv.KeyedList
import Mathlib.Data.List.ReduceOption

/-!
# Merging image metadata with the repository configuration

The contributions of the images and Features are merged in the order they are given, the
repository configuration last. Every property has its own strategy. The strategies are defined and
described one by one; the merge is the fold of all of them at once.
-/
namespace Cdenv.MetadataMerge
open TextScan Fallible KeyedList List

structure ImageMetadata where
  source : Text
  common : RawCommon := {}
  entrypoint : Option Text := none
  overrideCommand : Option Bool := none
  shutdownAction : Option ShutdownAction := none

inductive MetadataError where
  | invalidMount (source property : Text)
  | invalidRequirement (source property : Text)

/-- A disjunction. -/
def orMerge (current value : Option Bool) : Option Bool :=
  match value with
  | some value => some (current.getD false || value)
  | none => current

/-- The values that the set has not seen, each once. -/
def unseen (seen : OrderedSet Text) : List Text → List Text
  | [] => []
  | value::rest =>
    if seen.contains value then unseen seen rest
    else value::unseen (seen.insertKey value) rest

/-- A union that keeps first occurrences. -/
def stableExtend (output values : List Text) : List Text :=
  output++unseen (OrderedSet.extend .empty output) values

/-- The last value that is defined. -/
def replaceIfSome {α : Type} (output value : Option α) : Option α := value.or output

/-- The last value under each key. -/
def extendMap {α : Type} (output value : OrderedMap Text α) : OrderedMap Text α :=
  value.entries.foldl (fun output entry => output.insert entry.1 entry.2) output

def appendCommand (output : List RawCommand) (value : Option RawCommand) : List RawCommand :=
  output++value.toList

def appendLifecycle (output : EffectiveLifecycle) (value : LifecycleCommands) :
    EffectiveLifecycle where
  initializeCommand := appendCommand output.initializeCommand value.initializeCommand
  onCreate := appendCommand output.onCreate value.onCreate
  updateContent := appendCommand output.updateContent value.updateContent
  postCreate := appendCommand output.postCreate value.postCreate
  postStart := appendCommand output.postStart value.postStart
  postAttach := appendCommand output.postAttach value.postAttach

def isTargetField (field : Text) : Option Text := do
  let (key, target) ← splitOnce '=' field
  if ["target".toList,"dst".toList,"destination".toList].contains (trim key) then
    some (trim target)
  else none

/-- The text by which a mount is recognized: as it is written, before any substitution. -/
def mountTarget : RawMount → Option Text
  | .object _ _ target => some target
  | .string value => (value.splitOn ',').findSome? isTargetField

def mergeMount (source : Text) (mounts : List (Text × RawMount)) (mount : RawMount) :
    Except MetadataError (List (Text × RawMount)) := do
  let target ← orFail (mountTarget mount) (.invalidMount source "$.mounts")
  return upsert target mount mounts

def portNumber : ForwardPort → ℕ
  | .container port => port
  | .service _ port => port

def forwardPortKey (port : ForwardPort) : Text := decimal (portNumber port)

def mergeForwardPort (ports : List (Text × ForwardPort)) (port : ForwardPort) :
    List (Text × ForwardPort) :=
  upsert (forwardPortKey port) port ports

def multiplier (suffix : Text) : Option ℕ :=
  if suffix = [] then some 1
  else if suffix = "kb" then some (2^10)
  else if suffix = "mb" then some (2^20)
  else if suffix = "gb" then some (2^30)
  else if suffix = "tb" then some (2^40)
  else none

def sizeBytes (value : Text) : Option ℕ := do
  let digits := value.takeWhile Char.isDigit
  guard (digits ≠ [])
  let number := Nat.ofDigitChars 10 digits 0
  guard (number < 2^64)
  let multiplier ← multiplier (value.dropWhile Char.isDigit)
  guard (number*multiplier < 2^64)
  return number*multiplier

def maxSize (current next : Option Text) (source property : Text) :
    Except MetadataError (Option Text) :=
  match next with
  | none => .ok current
  | some next => do
    let nextBytes ← orFail (sizeBytes next) (.invalidRequirement source property)
    match current with
    | none => return some next
    | some current => do
      let currentBytes ← orFail (sizeBytes current)
        (.invalidRequirement "earlier metadata" property)
      return some (if currentBytes ≤ nextBytes then next else current)

/-- An absent number is below every number. -/
def maxNumber (a b : Option ℕ) : Option ℕ :=
  match a, b with
  | some a, some b => some (max a b)
  | a, b => a.or b

def gpuRank : GpuRequirement → ℕ
  | .notRequired => 0
  | .optional => 1
  | .required => 2
  | .detailed _ _ => 3

def mergeGpu (current next : Option GpuRequirement) (source : Text) :
    Except MetadataError (Option GpuRequirement) :=
  match current, next with
  | some (.detailed cores memory), some (.detailed cores' memory') => do
    let memory ← maxSize memory memory' source "$.hostRequirements.gpu.memory"
    return some (.detailed (maxNumber cores cores') memory)
  | some current, some next =>
    .ok (some (if gpuRank current ≤ gpuRank next then next else current))
  | current, next => .ok (current.or next)

def validateRequirementSizes (requirements : HostRequirements) (source : Text) :
    Except MetadataError Unit := do
  require (requirements.memory.all fun value => (sizeBytes value).isSome)
    (.invalidRequirement source "$.hostRequirements.memory")
  require (requirements.storage.all fun value => (sizeBytes value).isSome)
    (.invalidRequirement source "$.hostRequirements.storage")
  match requirements.gpu with
  | some (.detailed _ (some memory)) =>
    require (sizeBytes memory).isSome
      (.invalidRequirement source "$.hostRequirements.gpu.memory")
  | _ => return ()

/-- The larger of each. -/
def mergeRequirements (current next : Option HostRequirements) (source : Text) :
    Except MetadataError (Option HostRequirements) :=
  match current, next with
  | some current, some next => do
    let memory ← maxSize current.memory next.memory source "$.hostRequirements.memory"
    let storage ← maxSize current.storage next.storage source
      "$.hostRequirements.storage"
    let gpu ← mergeGpu current.gpu next.gpu source
    return some ⟨maxNumber current.cpus next.cpus,memory,storage,gpu⟩
  | current, next =>
    match current.or next with
    | none => .ok none
    | some requirements => do
      validateRequirementSizes requirements source
      return some requirements

/-- The accumulators. Mounts and ports are kept under their keys until the end. -/
structure Merging where
  settings : EffectiveMetadata := {}
  mounts : List (Text × RawMount) := []
  forwardPorts : List (Text × ForwardPort) := []

/-- What no check stands in the way of, with the outcomes of the two that can fail. -/
def Merging.absorb (state : Merging) (common : RawCommon) (mounts : List (Text × RawMount))
    (hostRequirements : Option HostRequirements) : Merging :=
  let settings := state.settings
  { settings := { settings with
      init := orMerge settings.init common.init
      privileged := orMerge settings.privileged common.privileged
      capAdd := stableExtend settings.capAdd common.capAdd
      securityOpt := stableExtend settings.securityOpt common.securityOpt
      lifecycle := appendLifecycle settings.lifecycle common.lifecycle
      containerUser := replaceIfSome settings.containerUser common.containerUser
      remoteUser := replaceIfSome settings.remoteUser common.remoteUser
      userEnvProbe := replaceIfSome settings.userEnvProbe common.userEnvProbe
      updateRemoteUserUid :=
        replaceIfSome settings.updateRemoteUserUid common.updateRemoteUserUid
      waitFor := replaceIfSome settings.waitFor common.waitFor
      containerEnv := extendMap settings.containerEnv common.containerEnv
      remoteEnv := extendMap settings.remoteEnv common.remoteEnv
      portsAttributes := extendMap settings.portsAttributes common.portsAttributes
      otherPortsAttributes :=
        replaceIfSome settings.otherPortsAttributes common.otherPortsAttributes
      hostRequirements
      customizations := settings.customizations ++
        if common.customizations.entries.isEmpty then [] else [common.customizations] }
    mounts
    forwardPorts := common.forwardPorts.foldl mergeForwardPort state.forwardPorts }

def mergeCommon (source : Text) (common : RawCommon) (state : Merging) :
    Except MetadataError Merging := do
  let mounts ← common.mounts.foldlM (mergeMount source) state.mounts
  let hostRequirements ←
    mergeRequirements state.settings.hostRequirements common.hostRequirements source
  return state.absorb common mounts hostRequirements

/-- The settings of a scenario, which the common ones do not hold. -/
def Merging.withScalars (state : Merging) (scalars : Option Bool × Option ShutdownAction) :
    Merging :=
  { state with
    settings := { state.settings with
      overrideCommand := replaceIfSome state.settings.overrideCommand scalars.1
      shutdownAction := replaceIfSome state.settings.shutdownAction scalars.2 } }

def Merging.withEntrypoint (state : Merging) (entrypoint : Option Text) : Merging :=
  { state with
    settings := { state.settings with
      entrypoints := state.settings.entrypoints++entrypoint.toList } }

def mergeContribution (state : Merging) (contribution : ImageMetadata) :
    Except MetadataError Merging := do
  let state ← mergeCommon contribution.source contribution.common state
  return (state.withEntrypoint contribution.entrypoint).withScalars
    (contribution.overrideCommand, contribution.shutdownAction)

def scenarioScalars : RawScenario → Option Bool × Option ShutdownAction
  | .image value => (value.options.overrideCommand, value.options.shutdownAction)
  | .dockerfile value => (value.options.overrideCommand, value.options.shutdownAction)
  | .compose value => (value.overrideCommand, value.shutdownAction)

def Merging.finish (state : Merging) : EffectiveMetadata :=
  { state.settings with
    mounts := state.mounts.map Prod.snd
    forwardPorts := state.forwardPorts.map Prod.snd }

def mergeImageMetadata (metadata : List ImageMetadata) (repository : RawProfile) :
    Except MetadataError EffectiveMetadata := do
  let state ← metadata.foldlM mergeContribution {}
  let state ← mergeCommon "repository" repository.common state
  return (state.withScalars (scenarioScalars repository.scenario)).finish

def repositoryContribution (repository : RawProfile) : ImageMetadata where
  source := "repository"
  common := repository.common
  overrideCommand := (scenarioScalars repository.scenario).1
  shutdownAction := (scenarioScalars repository.scenario).2

def contributions (metadata : List ImageMetadata) (repository : RawProfile) : List ImageMetadata :=
  metadata++[repositoryContribution repository]

theorem mergeContribution_repository (state : Merging) (repo : RawProfile) :
    mergeContribution state (repositoryContribution repo) = do
      let state ← mergeCommon "repository" repo.common state
      return state.withScalars (scenarioScalars repo.scenario) := by
  have hn (state : Merging) : state.withEntrypoint none = state := by
    simp [Merging.withEntrypoint]
  unfold mergeContribution repositoryContribution
  simp_rw [hn]

theorem mergeImageMetadata_eq_ok {md : List ImageMetadata} {repo : RawProfile}
    {effective : EffectiveMetadata} :
    mergeImageMetadata md repo = .ok effective ↔
      ∃ st, (contributions md repo).foldlM mergeContribution {} = .ok st ∧
        st.finish = effective := by
  unfold mergeImageMetadata contributions
  simp only [foldlM_append,foldlM_cons,foldlM_nil,mergeContribution_repository,
    bind_eq_ok,pure_eq_ok]
  constructor
  · rintro ⟨st,hs,l,hl,rfl⟩
    exact ⟨_,⟨st,hs,_,⟨l,hl,rfl⟩,rfl⟩,rfl⟩
  · rintro ⟨_,⟨st,hs,_,⟨l,hl,rfl⟩,rfl⟩,rfl⟩
    exact ⟨st,hs,l,hl,rfl⟩

theorem mergeContribution_eq_ok {st next : Merging} {con : ImageMetadata}
    (h : mergeContribution st con = .ok next) :
    ∃ ms hreq, con.common.mounts.foldlM (mergeMount con.source) st.mounts = .ok ms ∧
      next = ((st.absorb con.common ms hreq).withEntrypoint con.entrypoint).withScalars
          (con.overrideCommand, con.shutdownAction) := by
  simp only [mergeContribution,mergeCommon,bind_eq_ok,pure_eq_ok] at h
  obtain ⟨_,⟨ms,hm,hreq,-,rfl⟩,rfl⟩ := h
  exact ⟨ms,hreq,hm,rfl⟩

/-- Every contribution acts on a part of the accumulators by a plain function. -/
def Acts {γ : Type} (p : Merging → γ) (g : γ → ImageMetadata → γ) : Prop :=
  ∀ state mounts hostRequirements (c : ImageMetadata),
    p (((state.absorb c.common mounts hostRequirements).withEntrypoint c.entrypoint).withScalars
      (c.overrideCommand, c.shutdownAction)) = g (p state) c

theorem Acts.foldl {γ : Type} {p : Merging → γ} {g : γ → ImageMetadata → γ}
    {cs : List ImageMetadata} {st : Merging} (ha : Acts p g)
    (h : cs.foldlM mergeContribution {} = .ok st) : p st = cs.foldl g (p {}) := by
  refine foldlM_project ?_ h
  intro bef c next hn
  obtain ⟨ms,hreq,-,rfl⟩ := mergeContribution_eq_ok hn
  exact ha bef ms hreq c

section
variable {γ : Type} (cs : List γ)

/-- The value of the last one that defines it. -/
def lastDefined {α : Type} (values : List (Option α)) : Option α := values.reduceOption.getLast?

variable {α : Type}

theorem lastDefined_concat (vs : List (Option α)) (val : Option α) :
    lastDefined (vs++[val]) = val.or (lastDefined vs) := by
  unfold lastDefined
  rw [reduceOption_append]
  cases val with
  | none | some v => simp

theorem foldl_replaceIfSome (f : γ → Option α) :
    cs.foldl (fun out c => replaceIfSome out (f c)) none = lastDefined (cs.map f) := by
  induction cs using reverseRecOn with
  | nil => rfl
  | append_singleton cs c ih =>
    rw [foldl_append,ih,map_append,map_singleton,lastDefined_concat]
    rfl

/-- True when one value is true, absent when all are. -/
def OrMerged (values : List (Option Bool)) (merged : Option Bool) : Prop :=
  (merged = some true ↔ some true ∈ values) ∧ (merged = none ↔ ∀ value ∈ values, value = none)

theorem foldl_orMerge (f : γ → Option Bool) :
    OrMerged (cs.map f) (cs.foldl (fun out c => orMerge out (f c)) none) := by
  induction cs using reverseRecOn with
  | nil => simp [OrMerged]
  | append_singleton cs c ih =>
    obtain ⟨ht,hn⟩ := ih
    rw [foldl_append,map_append,map_singleton,foldl_cons,foldl_nil]
    unfold OrMerged
    simp only [mem_append,mem_singleton,← ht,or_imp,forall_and,forall_eq,← hn]
    cases hc : f c with
    | none => simp [orMerge]
    | some v =>
      cases cs.foldl (fun out c => orMerge out (f c)) none with
      | none => simp [orMerge,eq_comm]
      | some merged => cases merged <;> simp [orMerge,eq_comm]

theorem unseen_eq (seen : OrderedSet Text) (output vs : List Text)
    (hs : ∀ val, val ∈ seen.keys ↔ val ∈ output) :
    unseen seen vs = (vs.removeAll output).eraseDups := by
  induction vs generalizing seen output with
  | nil => rfl
  | cons val vs ih =>
    unfold unseen
    split_ifs with hm
    · have ho := (hs val).mp (OrderedMap.contains_iff.mp hm)
      rw [ih seen output hs]
      simp [removeAll,ho]
    · have ho : val ∉ output := by
        intro hva
        exact hm (OrderedMap.contains_iff.mpr ((hs val).mpr hva))
      have hn : ∀ v, v ∈ (seen.insertKey val).keys ↔ v ∈ val::output := by
        intro v
        rw [OrderedSet.mem_insertKey,mem_cons,hs]
      have hf : (vs.removeAll output).filter (fun v => !v == val) = vs.removeAll (val::output) := by
        unfold removeAll
        rw [filter_filter]
        apply filter_congr
        intro v _
        by_cases hv : v = val <;> simp [hv]
      rw [ih _ _ hn,← hf,← eraseDups_cons]
      simp [removeAll,ho]

theorem stableExtend_eraseDups (out vs : List Text) :
    stableExtend out.eraseDups vs = (out++vs).eraseDups := by
  unfold stableExtend
  rw [eraseDups_append,unseen_eq _ out]
  intro v
  rw [OrderedSet.mem_extend,mem_eraseDups]
  simp [OrderedMap.keys,OrderedMap.empty]

theorem foldl_stableExtend (f : γ → List Text) :
    cs.foldl (fun out c => stableExtend out (f c)) [] = (cs.flatMap f).eraseDups := by
  induction cs using reverseRecOn with
  | nil => rfl
  | append_singleton cs c ih =>
    rw [foldl_append,ih,foldl_cons,foldl_nil,stableExtend_eraseDups,
      flatMap_append,flatMap_singleton]

theorem foldl_append_toList (field : γ → Option α) :
    cs.foldl (fun out c => out++(field c).toList) [] = cs.filterMap field := by
  induction cs using reverseRecOn with
  | nil => rfl
  | append_singleton cs c ih =>
    rw [foldl_append,ih,filterMap_append,foldl_cons,foldl_nil]
    cases hc : field c <;> simp [hc]

theorem get?_extendMap (out v : OrderedMap Text α) (k : Text) :
    (extendMap out v).get? k = (v.get? k).or (out.get? k) :=
  OrderedMap.get?_foldl_insert v.entries out v.sorted k

theorem get?_foldl_extendMap (f : γ → OrderedMap Text α) (k : Text) :
    (cs.foldl (fun out c => extendMap out (f c)) .empty).get? k =
      lastDefined (cs.map fun c => (f c).get? k) := by
  induction cs using reverseRecOn with
  | nil => rfl
  | append_singleton cs c ih =>
    rw [foldl_append,foldl_cons,foldl_nil,get?_extendMap,ih,map_append,
      map_singleton,lastDefined_concat]

/-- Ports by their numbers: the decimal texts under which they are kept tell them apart. -/
theorem foldl_mergeForwardPort (ps : List ForwardPort) :
    (ps.foldl mergeForwardPort []).map Prod.snd = (ps.map portNumber).eraseDups.filterMap fun n =>
        (ps.filter (portNumber · = n)).getLast? := by
  have hf : ps.foldl mergeForwardPort [] = settled (ps.map fun p => (forwardPortKey p, p)) := by
    rw [← foldl_upsert,foldl_map]
    rfl
  rw [hf,← survivors_eq]
  exact survivors_comp (fun _ _ => decimal_inj.mp) portNumber ps

end

/-- What the merged configuration says of the contributions, in their order. -/
structure MergedFrom (cs : List ImageMetadata) (effective : EffectiveMetadata) : Prop where
  init : OrMerged (cs.map (·.common.init)) effective.init
  privileged : OrMerged (cs.map (·.common.privileged)) effective.privileged
  capAdd : effective.capAdd = (cs.flatMap (·.common.capAdd)).eraseDups
  securityOpt : effective.securityOpt = (cs.flatMap (·.common.securityOpt)).eraseDups
  initializeCommand : effective.lifecycle.initializeCommand =
    cs.filterMap (·.common.lifecycle.initializeCommand)
  onCreate : effective.lifecycle.onCreate = cs.filterMap (·.common.lifecycle.onCreate)
  updateContent : effective.lifecycle.updateContent =
    cs.filterMap (·.common.lifecycle.updateContent)
  postCreate : effective.lifecycle.postCreate = cs.filterMap (·.common.lifecycle.postCreate)
  postStart : effective.lifecycle.postStart = cs.filterMap (·.common.lifecycle.postStart)
  postAttach : effective.lifecycle.postAttach = cs.filterMap (·.common.lifecycle.postAttach)
  containerUser : effective.containerUser = lastDefined (cs.map (·.common.containerUser))
  remoteUser : effective.remoteUser = lastDefined (cs.map (·.common.remoteUser))
  userEnvProbe : effective.userEnvProbe = lastDefined (cs.map (·.common.userEnvProbe))
  updateRemoteUserUid : effective.updateRemoteUserUid =
    lastDefined (cs.map (·.common.updateRemoteUserUid))
  waitFor : effective.waitFor = lastDefined (cs.map (·.common.waitFor))
  otherPortsAttributes : effective.otherPortsAttributes =
    lastDefined (cs.map (·.common.otherPortsAttributes))
  overrideCommand : effective.overrideCommand = lastDefined (cs.map (·.overrideCommand))
  shutdownAction : effective.shutdownAction = lastDefined (cs.map (·.shutdownAction))
  containerEnv : ∀ name, effective.containerEnv.get? name =
    lastDefined (cs.map (·.common.containerEnv.get? name))
  remoteEnv : ∀ name, effective.remoteEnv.get? name =
    lastDefined (cs.map (·.common.remoteEnv.get? name))
  portsAttributes : ∀ port, effective.portsAttributes.get? port =
    lastDefined (cs.map (·.common.portsAttributes.get? port))
  forwardPorts : effective.forwardPorts =
    ((cs.flatMap (·.common.forwardPorts)).map portNumber).eraseDups.filterMap fun number =>
      ((cs.flatMap (·.common.forwardPorts)).filter (portNumber · = number)).getLast?

section
variable {cs : List ImageMetadata} {s : Merging}
  (hr : cs.foldlM mergeContribution {} = .ok s)
include hr

theorem eq_lastDefined {α : Type} (p : Merging → Option α) {f : ImageMetadata → Option α}
    (ha : Acts p fun out c => replaceIfSome out (f c)) (hp : p {} = none) :
    p s = lastDefined (cs.map f) := by
  rw [ha.foldl hr,hp,foldl_replaceIfSome]

theorem orMerged (p : Merging → Option Bool) {f : ImageMetadata → Option Bool}
    (ha : Acts p fun out c => orMerge out (f c)) (hp : p {} = none) :
    OrMerged (cs.map f) (p s) := by
  rw [ha.foldl hr,hp]
  exact foldl_orMerge cs f

theorem eq_eraseDups (p : Merging → List Text) {f : ImageMetadata → List Text}
    (ha : Acts p fun out c => stableExtend out (f c)) (hp : p {} = []) :
    p s = (cs.flatMap f).eraseDups := by
  rw [ha.foldl hr,hp,foldl_stableExtend]

theorem eq_filterMap (p : Merging → List RawCommand) {field : ImageMetadata → Option RawCommand}
    (ha : Acts p fun out c => appendCommand out (field c)) (hp : p {} = []) :
    p s = cs.filterMap field := by
  rw [ha.foldl hr,hp]
  exact foldl_append_toList cs field

theorem get?_eq_lastDefined {α : Type} (p : Merging → OrderedMap Text α)
    {f : ImageMetadata → OrderedMap Text α}
    (ha : Acts p fun out c => extendMap out (f c)) (hp : p {} = .empty) (k : Text) :
    (p s).get? k = lastDefined (cs.map fun c => (f c).get? k) := by
  rw [ha.foldl hr,hp,get?_foldl_extendMap]

theorem forwardPorts_eq :
    s.forwardPorts = (cs.flatMap (·.common.forwardPorts)).foldl mergeForwardPort [] := by
  have ha : Acts (fun s => s.forwardPorts)
      (fun ps c => c.common.forwardPorts.foldl mergeForwardPort ps) :=
    fun _ _ _ _ => rfl
  rw [foldl_flatMap]
  exact ha.foldl hr

end

theorem mergeImageMetadata_mergedFrom (metadata : List ImageMetadata) (repository : RawProfile)
    (effective : EffectiveMetadata)
    (h : mergeImageMetadata metadata repository = .ok effective) :
    MergedFrom (contributions metadata repository) effective := by
  obtain ⟨s,hr,rfl⟩ := mergeImageMetadata_eq_ok.mp h
  generalize contributions metadata repository = cs at hr
  exact {
    init := orMerged hr (·.settings.init) (fun _ _ _ _ => rfl) rfl
    privileged := orMerged hr (·.settings.privileged) (fun _ _ _ _ => rfl) rfl
    capAdd := eq_eraseDups hr (·.settings.capAdd) (fun _ _ _ _ => rfl) rfl
    securityOpt := eq_eraseDups hr (·.settings.securityOpt) (fun _ _ _ _ => rfl) rfl
    initializeCommand :=
      eq_filterMap hr (·.settings.lifecycle.initializeCommand) (fun _ _ _ _ => rfl) rfl
    onCreate := eq_filterMap hr (·.settings.lifecycle.onCreate) (fun _ _ _ _ => rfl) rfl
    updateContent := eq_filterMap hr (·.settings.lifecycle.updateContent) (fun _ _ _ _ => rfl) rfl
    postCreate := eq_filterMap hr (·.settings.lifecycle.postCreate) (fun _ _ _ _ => rfl) rfl
    postStart := eq_filterMap hr (·.settings.lifecycle.postStart) (fun _ _ _ _ => rfl) rfl
    postAttach := eq_filterMap hr (·.settings.lifecycle.postAttach) (fun _ _ _ _ => rfl) rfl
    containerUser := eq_lastDefined hr (·.settings.containerUser) (fun _ _ _ _ => rfl) rfl
    remoteUser := eq_lastDefined hr (·.settings.remoteUser) (fun _ _ _ _ => rfl) rfl
    userEnvProbe := eq_lastDefined hr (·.settings.userEnvProbe) (fun _ _ _ _ => rfl) rfl
    updateRemoteUserUid :=
      eq_lastDefined hr (·.settings.updateRemoteUserUid) (fun _ _ _ _ => rfl) rfl
    waitFor := eq_lastDefined hr (·.settings.waitFor) (fun _ _ _ _ => rfl) rfl
    otherPortsAttributes :=
      eq_lastDefined hr (·.settings.otherPortsAttributes) (fun _ _ _ _ => rfl) rfl
    overrideCommand := eq_lastDefined hr (·.settings.overrideCommand) (fun _ _ _ _ => rfl) rfl
    shutdownAction := eq_lastDefined hr (·.settings.shutdownAction) (fun _ _ _ _ => rfl) rfl
    containerEnv := get?_eq_lastDefined hr (·.settings.containerEnv) (fun _ _ _ _ => rfl) rfl
    remoteEnv := get?_eq_lastDefined hr (·.settings.remoteEnv) (fun _ _ _ _ => rfl) rfl
    portsAttributes :=
      get?_eq_lastDefined hr (·.settings.portsAttributes) (fun _ _ _ _ => rfl) rfl
    forwardPorts := by
      change s.forwardPorts.map Prod.snd = _
      rw [forwardPorts_eq hr,foldl_mergeForwardPort] }

/-- An image and a repository that forward the same port and request different users. -/
def sampleImage : ImageMetadata where
  source := "base"
  common := {
    init := some true
    remoteUser := some "dev"
    forwardPorts := [.container 3000,.service "db" 5432] }

def sampleRepository : RawProfile where
  scenario := .image { image := "base" }
  common := { remoteUser := some "root", forwardPorts := [.service "web" 3000] }

def sampleEffective : EffectiveMetadata where
  init := some true
  remoteUser := some "root"
  forwardPorts := [.service "web" 3000,.service "db" 5432]

theorem sampleMerge : mergeImageMetadata [sampleImage] sampleRepository = .ok sampleEffective ∧
      MergedFrom (contributions [sampleImage] sampleRepository) sampleEffective :=
  ⟨rfl,mergeImageMetadata_mergedFrom [sampleImage] sampleRepository sampleEffective rfl⟩

end Cdenv.MetadataMerge
