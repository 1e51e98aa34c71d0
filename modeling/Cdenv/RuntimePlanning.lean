import Cdenv.ContainerPath
import Cdenv.Profile
import Cdenv.Substitution

/-!
# Runtime planning

The pure plan of a container, from a profile, the merged metadata and the injected host
values. Reading a mount is cut in two where the source turns from collecting fields to
validating them.
-/
namespace Cdenv.RuntimePlanning
open TextScan Fallible Substitution ContainerPath

inductive PlanningErrorKind where
  | invalidPath | invalidMount | mountConflict | workspaceContainment | ownedTargetConflict
  | invalidUser | invalidEnvironmentName | substitution | invalidRuntimeSetting
deriving DecidableEq

/-- The property that was read, a category and the text the source gives it. -/
structure PlanningError where
  propertyPath : Text
  kind : PlanningErrorKind
  message : Text
deriving DecidableEq

def failure (propertyPath : Text) (kind : PlanningErrorKind) (message : String) : PlanningError :=
  ⟨propertyPath,kind,message.toList⟩

structure HostUserIdentity where
  (uid gid : ℕ)
deriving DecidableEq

def acceptsUser (value : Text) : Bool :=
  !value.isEmpty && !(value.any fun c => isControl c || isWhitespace c || c == ',') &&
    !(value.splitOn ':').any List.isEmpty && value.count ':' ≤ 1

/-- A `user` or `user:group` expression that is safe in an argument. -/
structure ContainerUser where
  value : Text
  accepted : acceptsUser value = true
deriving DecidableEq

def ContainerUser.parse (value : Text) : Option ContainerUser :=
  if h : acceptsUser value = true then some ⟨value,h⟩ else none

def ContainerUser.account (user : ContainerUser) : Text := untilFirst ':' user.value

def ContainerUser.isRoot (user : ContainerUser) : Bool :=
  user.account == "root" || user.account == "0"

def ContainerUser.isNumeric (user : ContainerUser) : Bool := user.account.all Char.isDigit

inductive UidUpdateSkipReason where
  | disabled | hostIdentityUnknown | rootUser | numericUser
deriving DecidableEq

inductive UidUpdateIntent where
  | none (reason : UidUpdateSkipReason)
  | updateNamedUser (user : ContainerUser) (host : HostUserIdentity)
deriving DecidableEq

structure MountOption where
  name : Text
  value : Option Text
deriving DecidableEq

structure PlannedMount where
  kind : MountKind
  source : Option Text
  target : ContainerPath
  options : List MountOption
deriving DecidableEq

structure WorkspacePlan where
  folder : ContainerPath
  mount : PlannedMount
deriving DecidableEq

/-- Create-time values are resolved; remote values may wait for the container. -/
structure EnvironmentPlan where
  container : OrderedMap Text Text
  remote : OrderedMap Text (Option DeferredString)
deriving DecidableEq

/-- Workspace location, mounts, users, environment and runtime switches. -/
structure RuntimePlan where
  workspace : WorkspacePlan
  mounts : List PlannedMount
  (containerUser remoteUser : ContainerUser)
  uidUpdate : UidUpdateIntent
  environment : EnvironmentPlan
  userEnvProbe : UserEnvProbe
  (overrideCommand init privileged : Bool)
  (capAdd securityOpt : List Text)
deriving DecidableEq

def RuntimePlan.sample : RuntimePlan where
  workspace :=
    { folder := ⟨"/workspaces/app",by decide⟩
      mount := ⟨.bind,some "/home/dev/app",⟨"/workspaces/app",by decide⟩,[]⟩ }
  mounts := []
  containerUser := ⟨"dev",by decide⟩
  remoteUser := ⟨"dev",by decide⟩
  uidUpdate := .none .disabled
  environment := ⟨.empty,.empty⟩
  userEnvProbe := .none
  overrideCommand := true
  init := false
  privileged := false
  capAdd := []
  securityOpt := []

structure RuntimePlanningInputs where
  localWorkspaceFolder : Text
  localEnv : OrderedMap Text Text := .empty
  identityLabels : OrderedMap Text Text := .empty
  /-- Image or service user learned by the host adapter. -/
  scenarioContainerUser : Option Text := none
  cdenvOwnedTargets : List ContainerPath := []
  hostUser : Option HostUserIdentity := none

/-- A mount as it was written, before its values are validated. -/
structure MountRequest where
  kind : MountKind
  source : Option Text
  target : Text
  options : List MountOption

structure MountFields where
  kind : Option MountKind := none
  source : Option Text := none
  target : Option Text := none
  options : List MountOption := []

def splitField (field : Text) : Text × Option Text :=
  match splitOnce '=' field with
  | some (name, value) => (trim name, some (trim value))
  | none => (trim field, none)

def mountKind : Option Text → Option MountKind
  | some value =>
    if value = "bind" then some .bind
    else if value = "volume" then some .volume
    else none
  | none => none

def setOnce (current value : Option Text) (property : Text) (message : String) :
    Except PlanningError (Option Text) := do
  let value ← orFail value (failure property .invalidMount "mount field requires a value")
  require current.isNone (failure property .invalidMount message)
  return some value

def isSourceKey (name : Text) : Bool := name == "source" || name == "src"

def isTargetKey (name : Text) : Bool :=
  name == "target" || name == "dst" || name == "destination"

/-- One field of a mount text; type, source and target come once. -/
def readField (property : Text) (fields : MountFields) (field : Text) :
    Except PlanningError MountFields := do
  let (name, value) := splitField field
  require (!name.isEmpty && value != some [])
    (failure property .invalidMount "mount contains an empty option")
  if name = "type" then
    require fields.kind.isNone (failure property .invalidMount "mount type is duplicated")
    let kind ← orFail (mountKind value)
      (failure property .invalidMount "mount type must be bind or volume")
    return { fields with kind := some kind }
  else if isSourceKey name then
    return { fields with source := ← setOnce fields.source value property "mount source is duplicated" }
  else if isTargetKey name then
    return { fields with target := ← setOnce fields.target value property "mount target is duplicated" }
  else
    return { fields with options := fields.options++[⟨name,value⟩] }

def MountFields.finish (fields : MountFields) (property : Text) :
    Except PlanningError MountRequest := do
  let kind ← orFail fields.kind (failure property .invalidMount "mount type is required")
  let target ← orFail fields.target (failure property .invalidMount "mount target is required")
  return ⟨kind,fields.source,target,fields.options⟩

def isVolumeName (value : Text) : Bool :=
  (value.head?.any Char.isAlphanum) &&
    value.all fun c => c.isAlphanum || c == '_' || c == '.' || c == '-'

def normalizeSource (kind : MountKind) (source : Option Text) (property : Text) :
    Except PlanningError (Option Text) :=
  match kind with
  | .bind => do
    let value ← orFail source (failure property .invalidMount "bind mount requires a source")
    let path ← (HostMountSource.parse value).mapError fun _ =>
      failure property .invalidPath "bind source must be an absolute traversal-free host path"
    return some path.value
  | .volume => do
    require (source.all isVolumeName)
      (failure property .invalidMount "volume source must be a safe Docker volume name")
    return source

/-- The planned mount. -/
def normalizeMount (request : MountRequest) (property : Text) :
    Except PlanningError PlannedMount := do
  let source ← normalizeSource request.kind request.source property
  let target ← (ContainerPath.parse request.target).mapError fun _ =>
    failure property .invalidPath "mount target must be an absolute traversal-free container path"
  return ⟨request.kind,source,target,request.options⟩

/-- What normalization makes of a source: a bind source is a host path, a volume
keeps its name or stays anonymous. -/
def SourceNormalizes (kind : MountKind) (source normal : Option Text) : Prop :=
  match kind with
  | .bind => ∃ s p, source = some s ∧ normalizeAbsolute s true = .ok p ∧ normal = some p
  | .volume => normal = source ∧ ∀ s, source = some s → isVolumeName s = true

theorem normalizeSource_eq_ok {k : MountKind} {src normal : Option Text} {prop : Text}
    (h : normalizeSource k src prop = .ok normal) :
    SourceNormalizes k src normal := by
  cases k with
  | bind =>
    simp only [normalizeSource,bind_eq_ok,orFail_eq_ok,mapError_eq_ok,pure_eq_ok,
      HostMountSource.parse_eq_ok] at h
    obtain ⟨s,hs,p,hp,rfl⟩ := h
    exact ⟨s,p.value,hs,hp,rfl⟩
  | volume =>
    simp only [normalizeSource,bind_eq_ok,require_eq_ok,pure_eq_ok] at h
    obtain ⟨-,ha,rfl⟩ := h
    exact ⟨rfl,by simpa [Option.all_eq_true] using ha⟩

theorem normalizeMount_eq_ok {req : MountRequest} {prop : Text} {m : PlannedMount}
    (h : normalizeMount req prop = .ok m) :
    m.kind = req.kind ∧ m.options = req.options ∧ SourceNormalizes req.kind req.source m.source ∧
      normalizeAbsolute req.target false = .ok m.target.value := by
  simp only [normalizeMount,bind_eq_ok,mapError_eq_ok,pure_eq_ok,ContainerPath.parse_eq_ok] at h
  obtain ⟨src,hs,t,ht,rfl⟩ := h
  exact ⟨rfl,rfl,normalizeSource_eq_ok hs,ht⟩

/-- The folder is in the mount, a bound source in the local workspace. -/
def validateWorkspaceMount (mount : PlannedMount) (folder : ContainerPath)
    (localWorkspace : HostMountSource) : Except PlanningError Unit := do
  require (pathContains mount.target.value folder.value)
    (failure "$.workspaceFolder" .workspaceContainment
      "workspace folder must be the workspace mount target or a child of it")
  match mount.kind with
  | .volume => return ()
  | .bind =>
    let source ← orFail mount.source
      (failure "$.workspaceMount" .invalidMount "workspace bind mount requires a source")
    let source ← (HostMountSource.parse source).mapError fun _ =>
      failure "$.workspaceMount" .invalidPath
        "workspace bind source must be an absolute traversal-free host path"
    require (pathContains localWorkspace.value source.value)
      (failure "$.workspaceMount" .workspaceContainment
        "workspace bind source must remain within the canonical local workspace")

def rejectOwnedTarget (target : ContainerPath) (owned : List ContainerPath) (property : Text) :
    Except PlanningError Unit :=
  require (!owned.any target.overlaps)
    (failure property .ownedTargetConflict "mount target overlaps a cdenv-owned container target")

def isEnvironmentName : Text → Bool
  | [] => false
  | c::rest => (c == '_' || c.isAlpha) && rest.all fun d => d == '_' || d.isAlpha || d.isDigit

def validateEnvironmentName (name property : Text) : Except PlanningError Unit :=
  require (isEnvironmentName name)
    (failure property .invalidEnvironmentName "environment name must match [A-Za-z_][A-Za-z0-9_]*")

/-- The first setting that is empty or holds a control character is reported. -/
def validateRuntimeStrings (values : List Text) (parent : Text) : Except PlanningError Unit :=
  match values.findIdx? fun value => value.isEmpty || value.any isControl with
  | some index =>
    .error (failure (parent++ '['::decimal index++[']']) .invalidRuntimeSetting
      "runtime setting must not be empty or contain control characters")
  | none => .ok ()

def uidUpdateIntent (enabled : Bool) (remoteUser : ContainerUser)
    (host : Option HostUserIdentity) : UidUpdateIntent :=
  if !enabled then .none .disabled
  else if remoteUser.isRoot then .none .rootUser
  else if remoteUser.isNumeric then .none .numericUser
  else
    match host with
    | some host => .updateNamedUser remoteUser host
    | none => .none .hostIdentityUnknown

def indexed (parent : String) (index : ℕ) : Text :=
  parent.toList++ '['::decimal index++[']']

def keyed (parent : String) (name : Text) : Text := parent.toList++"[\""++name++"\"]"

section
variable (digest : OrderedMap Text Text → List ℕ)

def immediateSubstitution (propertyPath : Text) (property : SubstitutionProperty) (value : Text)
    (context : HostSubstitutionInputs) : Except PlanningError Text :=
  ((substituteHost digest property value context).mapError fun _ =>
    failure propertyPath .substitution "unsupported or malformed substitution").map
    fun d => d.resolve .empty

/-- The mount as it was written. -/
def readStringMount (value property : Text) (substitutionProperty : SubstitutionProperty)
    (context : HostSubstitutionInputs) : Except PlanningError MountRequest := do
  let value ← immediateSubstitution digest property substitutionProperty value context
  let fields ← (value.splitOn ',').foldlM (readField property) {}
  fields.finish property

def parseStringMount (value property : Text) (substitutionProperty : SubstitutionProperty)
    (context : HostSubstitutionInputs) : Except PlanningError PlannedMount := do
  let request ← readStringMount digest value property substitutionProperty context
  normalizeMount request property

def readMount (mount : RawMount) (property : Text) (context : HostSubstitutionInputs) :
    Except PlanningError MountRequest :=
  match mount with
  | .string value => readStringMount digest value property .mount context
  | .object kind source target => do
    let source ← source.mapM fun value =>
      immediateSubstitution digest property .mount value context
    let target ← immediateSubstitution digest property .mount target context
    return ⟨kind,source,target,[]⟩

def parseMount (mount : RawMount) (property : Text) (context : HostSubstitutionInputs) :
    Except PlanningError PlannedMount := do
  let request ← readMount digest mount property context
  normalizeMount request property

/-- `targets` holds the targets so far. -/
def planMounts (context : HostSubstitutionInputs) (workspaceTarget : ContainerPath)
    (owned : List ContainerPath) :
    ℕ → OrderedSet Text → List RawMount → Except PlanningError (List PlannedMount)
  | _, _, [] => .ok []
  | index, targets, raw::rest => do
    let property := indexed "$.mounts" index
    let mount ← parseMount digest raw property context
    require (mount.target.value != workspaceTarget.value)
      (failure property .mountConflict
        "additional mount conflicts with the authoritative workspace target")
    rejectOwnedTarget mount.target owned property
    require (!targets.contains mount.target.value)
      (failure property .mountConflict "additional mount target is duplicated")
    let mounts ← planMounts context workspaceTarget owned (index+1)
      (targets.insertKey mount.target.value) rest
    return mount::mounts

/-- The two environments, each name checked before its value. -/
def planEnvironment (effective : EffectiveMetadata) (context : HostSubstitutionInputs) :
    Except PlanningError EnvironmentPlan := do
  let container ← effective.containerEnv.entries.foldlM (fun container (name, value) => do
      let property := keyed "$.containerEnv" name
      validateEnvironmentName name property
      let value ← immediateSubstitution digest property .containerEnv value context
      return container.insert name value) OrderedMap.empty
  let remote ← effective.remoteEnv.entries.foldlM (fun remote (name, value) => do
      let property := keyed "$.remoteEnv" name
      validateEnvironmentName name property
      let value ← (value.mapM fun value =>
          substituteHost digest .remoteEnv value context).mapError fun _ =>
        failure property .substitution "unsupported or malformed substitution"
      return remote.insert name value) OrderedMap.empty
  return ⟨container,remote⟩

def writtenFolder : RawScenario → Option Text
  | .image value => value.options.workspaceFolder
  | .dockerfile value => value.options.workspaceFolder
  | .compose value => some value.workspaceFolder

def writtenWorkspaceMount : RawScenario → Option Text
  | .image value => value.options.workspaceMount
  | .dockerfile value => value.options.workspaceMount
  | .compose _ => none

def isCompose : RawScenario → Bool
  | .compose _ => true
  | _ => false

def planLocalSource (inputs : RuntimePlanningInputs) : Except PlanningError HostMountSource :=
  (HostMountSource.parse inputs.localWorkspaceFolder).mapError fun _ =>
    failure "$" .invalidPath "local workspace path must be absolute and traversal-free"

/-- The written workspace folder, or the default, after substitution. -/
def folderText (profile : RawProfile) (inputs : RuntimePlanningInputs)
    (localSource : HostMountSource) : Except PlanningError Text := do
  let name := basename inputs.localWorkspaceFolder
  require (!name.isEmpty)
    (failure "$.workspaceFolder" .invalidPath "workspace basename must not be empty")
  let defaultFolder := "/workspaces/"++name
  let provisional : HostSubstitutionInputs :=
    ⟨localSource.value,defaultFolder,inputs.localEnv,inputs.identityLabels⟩
  immediateSubstitution digest "$.workspaceFolder" .workspaceFolder
    ((writtenFolder profile.scenario).getD defaultFolder) provisional

def planFolder (profile : RawProfile) (inputs : RuntimePlanningInputs)
    (localSource : HostMountSource) : Except PlanningError ContainerPath := do
  let value ← folderText digest profile inputs localSource
  (ContainerPath.parse value).mapError fun _ =>
    failure "$.workspaceFolder" .invalidPath
      "workspace folder must be an absolute traversal-free container path"

def planningContext (inputs : RuntimePlanningInputs) (localSource : HostMountSource)
    (folder : ContainerPath) : HostSubstitutionInputs :=
  ⟨localSource.value,folder.value,inputs.localEnv,inputs.identityLabels⟩

def planWorkspaceMount (profile : RawProfile) (localSource : HostMountSource)
    (folder : ContainerPath) (context : HostSubstitutionInputs) :
    Except PlanningError PlannedMount :=
  match writtenWorkspaceMount profile.scenario with
  | some value =>
    parseStringMount digest value "$.workspaceMount" .workspaceMount context
  | none => .ok ⟨.bind,some localSource.value,folder,[]⟩

def planUser (property : String) (substitution : SubstitutionProperty) (message : String)
    (raw : Text) (context : HostSubstitutionInputs) : Except PlanningError ContainerUser := do
  let value ← immediateSubstitution digest property.toList substitution raw context
  orFail (ContainerUser.parse value) (failure property.toList .invalidUser message)

/-- An empty scenario or metadata user counts as absent. -/
def rawContainerUser (effective : EffectiveMetadata) (inputs : RuntimePlanningInputs) : Text :=
  match (effective.containerUser.or inputs.scenarioContainerUser).filter (!·.isEmpty) with
  | some user => user
  | none => "root"

/-- The first check that fails decides the error. -/
def planRuntime (profile : RawProfile) (effective : EffectiveMetadata)
    (inputs : RuntimePlanningInputs) : Except PlanningError RuntimePlan := do
  let localSource ← planLocalSource inputs
  let folder ← planFolder digest profile inputs localSource
  let context := planningContext inputs localSource folder
  let workspaceMount ← planWorkspaceMount digest profile localSource folder context
  validateWorkspaceMount workspaceMount folder localSource
  rejectOwnedTarget workspaceMount.target inputs.cdenvOwnedTargets "$.workspaceMount"
  let mounts ← planMounts digest context workspaceMount.target inputs.cdenvOwnedTargets 0 .empty
    effective.mounts
  let containerUser ← planUser digest "$.containerUser" .containerUser
    "invalid effective container user" (rawContainerUser effective inputs) context
  let remoteUser ← planUser digest "$.remoteUser" .remoteUser "invalid effective remote user"
    (effective.remoteUser.getD containerUser.value) context
  let environment ← planEnvironment digest effective context
  validateRuntimeStrings effective.capAdd "$.capAdd"
  validateRuntimeStrings effective.securityOpt "$.securityOpt"
  return {
    workspace := ⟨folder,workspaceMount⟩
    mounts
    containerUser
    remoteUser
    uidUpdate :=
      uidUpdateIntent (effective.updateRemoteUserUid.getD true) remoteUser inputs.hostUser
    environment
    userEnvProbe := effective.userEnvProbe.getD .loginInteractiveShell
    overrideCommand := effective.overrideCommand.getD (!isCompose profile.scenario)
    init := effective.init.getD false
    privileged := effective.privileged.getD false
    capAdd := effective.capAdd
    securityOpt := effective.securityOpt }

variable {digest}

/-- Every additional mount was parsed under its own index and passed the conflict checks. -/
theorem planMounts_eq_ok {ctx : HostSubstitutionInputs} {wt : ContainerPath}
    {own : List ContainerPath} {i : ℕ} {ts : OrderedSet Text} {raws : List RawMount}
    {mounts : List PlannedMount}
    (h : planMounts digest ctx wt own i ts raws = .ok mounts) :
    List.Forall₂ (fun p m =>
        parseMount digest p.1 (indexed "$.mounts" p.2) ctx = .ok m ∧ m.target.value ≠ wt.value ∧
          ∀ o ∈ own, m.target.overlaps o = false)
      (raws.zipIdx i) mounts := by
  induction raws generalizing i ts mounts with
  | nil =>
    cases h
    exact .nil
  | cons raw raws ih =>
    simp only [planMounts,bind_eq_ok,pure_eq_ok,require_eq_ok,rejectOwnedTarget] at h
    obtain ⟨m,hp,-,hw,-,ho,-,-,xs,hr,rfl⟩ := h
    refine .cons ⟨hp,by simpa using hw,?_⟩ (ih hr)
    simpa using ho

/-- What each stage of a successful planning run returned. -/
structure PlannedBy (digest : OrderedMap Text Text → List ℕ) (profile : RawProfile)
    (effective : EffectiveMetadata) (inputs : RuntimePlanningInputs)
    (localSource : HostMountSource) (plan : RuntimePlan) : Prop where
  source : planLocalSource inputs = .ok localSource
  folder : planFolder digest profile inputs localSource = .ok plan.workspace.folder
  workspaceMount :
    planWorkspaceMount digest profile localSource plan.workspace.folder
      (planningContext inputs localSource plan.workspace.folder) = .ok plan.workspace.mount
  workspaceValid :
    validateWorkspaceMount plan.workspace.mount plan.workspace.folder localSource = .ok ()
  workspaceOwned : ∀ o ∈ inputs.cdenvOwnedTargets, plan.workspace.mount.target.overlaps o = false
  mounts :
    planMounts digest (planningContext inputs localSource plan.workspace.folder)
      plan.workspace.mount.target inputs.cdenvOwnedTargets 0 .empty effective.mounts =
        .ok plan.mounts
  environment :
    planEnvironment digest effective
      (planningContext inputs localSource plan.workspace.folder) = .ok plan.environment

theorem planRuntime_eq_ok {prof : RawProfile} {eff : EffectiveMetadata}
    {ins : RuntimePlanningInputs} {plan : RuntimePlan}
    (h : planRuntime digest prof eff ins = .ok plan) :
    ∃ src, PlannedBy digest prof eff ins src plan := by
  simp only [planRuntime,bind_eq_ok,pure_eq_ok] at h
  obtain ⟨src,hl,fo,hf,m,hm,⟨⟩,hv,⟨⟩,ho,ms,hmo,us,-,remote,-,env,he,-,-,-,-,rfl⟩ := h
  refine ⟨src,hl,hf,hm,hv,?_,hmo,he⟩
  simpa [rejectOwnedTarget] using ho

end

end Cdenv.RuntimePlanning
