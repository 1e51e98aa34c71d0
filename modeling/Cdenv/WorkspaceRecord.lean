import Cdenv.FileTree
import Cdenv.Credentials
import Cdenv.EventRun
import Cdenv.ProxyVerification

/-!
# The persisted workspace record

Commands change the record in memory and replace the file as a whole; only a commit changes
the active generation. Timestamps and paths are the texts they were parsed from.
-/
namespace Cdenv.WorkspaceRecord
open TextScan Fallible Identity Inspection PortPlanning
open ProxyVerification (ActiveScenario)

/-- The longest front part of at most so many bytes. -/
def truncate : ℕ → Text → Text
  | _, [] => []
  | limit, c::rest =>
    if c.utf8Size ≤ limit then c::truncate (limit - c.utf8Size) rest else []

theorem byteLength_truncate (limit : ℕ) (s : Text) : byteLength (truncate limit s) ≤ limit := by
  induction s generalizing limit with
  | nil => exact Nat.zero_le _
  | cons c xs ih =>
    unfold truncate
    split_ifs with hf
    · have hr := ih (limit - c.utf8Size)
      unfold byteLength at hr ⊢
      rw [List.map_cons,List.sum_cons]
      omega
    · exact Nat.zero_le _

theorem mem_of_mem_truncate {lim : ℕ} {s : Text} {c : Char} (h : c ∈ truncate lim s) : c ∈ s := by
  induction s generalizing lim with
  | nil => exact h
  | cons fst xs ih =>
    unfold truncate at h
    split_ifs at h
    · rcases List.mem_cons.mp h with rfl | hr
      · exact List.mem_cons_self
      · exact List.mem_cons_of_mem _ (ih hr)
    · cases h

def maxSummaryBytes : ℕ := 1024

structure SanitizedSummary where
  value : Text
  bounded : byteLength value ≤ maxSummaryBytes
  plain : ∀ c ∈ value, isControl c = false

def blankControl (c : Char) : Char := if isControl c then ' ' else c

theorem isControl_blankControl (c : Char) : isControl (blankControl c) = false := by
  unfold blankControl
  split_ifs with hc
  · decide
  · exact Bool.eq_false_iff.mpr hc

/-- No caller that is modelled passes secrets to remove. -/
def SanitizedSummary.redact (summary : Text) : SanitizedSummary where
  value := truncate maxSummaryBytes (summary.map blankControl)
  bounded := byteLength_truncate _ _
  plain c hc := by
    obtain ⟨original,-,rfl⟩ := List.mem_map.mp (mem_of_mem_truncate hc)
    exact isControl_blankControl original

structure KeyedDigest where
  value : Text
  valid : (stripPrefix "keyed:" value).any isDigest = true
deriving DecidableEq

structure PlanFingerprints where
  (build create runtime : KeyedDigest)
deriving DecidableEq

inductive ForegroundOperation where
  | idle | creating | starting | rebuilding | stopping | locking
deriving DecidableEq

def isOperation (kind : ForegroundOperation) (id startedAt : Option Text) : Bool :=
  match kind, id, startedAt with
  | .idle, none, none => true
  | .idle, _, _ => false
  | _, some id, some _ => !id.isEmpty && !id.any isControl
  | _, _, _ => false

/-- Only an operation that is not idle has an identifier and a start time. -/
structure OperationState where
  kind : ForegroundOperation
  (id startedAt : Option Text)
  valid : isOperation kind id startedAt = true

def OperationState.idle : OperationState := ⟨.idle,none,none,rfl⟩

inductive LifecycleStage where
  | initializeCommand | onCreateCommand | updateContentCommand | postCreateCommand
  | postStartCommand | postAttachCommand
deriving DecidableEq

structure LifecycleCheckpoint where
  (completedThrough running : Option LifecycleStage)
  indeterminate : Bool
deriving DecidableEq

inductive ForwardProtocol where
  | tcp | http | https
deriving DecidableEq

structure ForwardingEndpoint where
  address : IpAddr
  port : PortNumber
  loopback : address.isLoopback = true
deriving DecidableEq

structure ForwardingEndpointAssignment where
  requested : ForwardingEndpoint
  assigned : Option ForwardingEndpoint
deriving DecidableEq

structure DeclaredForward where
  requested : ForwardingEndpoint
  targetHost : Text
  targetPort : PortNumber
  requireLocalPort : Bool
  label : Option Text
  protocol : ForwardProtocol
deriving DecidableEq

structure ActiveForwarding where
  supervisorBuildId : Option IdentityToken
  requested : List DeclaredForward
  assigned : List ForwardingEndpointAssignment
deriving DecidableEq

inductive ContainerArchitecture where
  | x8664 | aarch64
deriving DecidableEq

structure ProtocolVersion where
  value : ℕ
  positive : 0 < value

instance : DecidableEq ProtocolVersion :=
  fun ⟨a,_⟩ ⟨b,_⟩ => decidable_of_iff (a = b) (by simp)

structure ProvisionedState where
  (remoteUser remoteWorkspaceFolder : Text)
  containerArchitecture : ContainerArchitecture
  agentPath : Text
  agentBuildId : IdentityToken
  protocolVersion : ProtocolVersion
  environmentPath : Text
deriving DecidableEq

structure ActiveGeneration where
  generation : GenerationId
  scenario : ActiveScenario
  containerId : ContainerId
  imageId : Text
  fingerprints : PlanFingerprints
  featureDigests : OrderedMap Text Text
  lifecycle : LifecycleCheckpoint
  forwarding : ActiveForwarding
  provisioned : ProvisionedState
deriving DecidableEq

def sampleToken : IdentityToken := ⟨"cdenv-devcontainer-v1",by decide⟩

def sampleDigest : KeyedDigest := ⟨"keyed:"++List.replicate 64 'a',by decide⟩

/-- A generation of an image workspace, in the container whose id repeats one digit. -/
def sampleActive (generation : GenerationId) (container : ContainerId) : ActiveGeneration where
  generation := generation
  scenario := .image
  containerId := container
  imageId := "sha256:"++List.replicate 64 'c'
  fingerprints := ⟨sampleDigest,sampleDigest,sampleDigest⟩
  featureDigests := .empty
  lifecycle := ⟨some .postCreateCommand,none,false⟩
  forwarding := ⟨none,[],[]⟩
  provisioned := {
    remoteUser := "vscode"
    remoteWorkspaceFolder := "/workspaces/a"
    containerArchitecture := .x8664
    agentPath := "/opt/cdenv/agent"
    agentBuildId := sampleToken
    protocolVersion := ⟨1,Nat.one_pos⟩
    environmentPath := "/opt/cdenv/environment" }

inductive ComposeServiceHealth where
  | unknown | healthy | unhealthy
deriving DecidableEq

inductive ComposePartialService where
  | missing
  | present (container : ContainerId) (running : Bool) (health : ComposeServiceHealth)
  | ambiguous (containers : List ContainerId)

structure ComposePartialState where
  generation : GenerationId
  services : OrderedMap Text ComposePartialService

inductive ComposeRebuildPhase where
  | buildFirst | recreation | managedSet | readiness | forwarding | activeCommit
deriving DecidableEq

structure ComposeRebuildRecovery where
  generation : GenerationId
  phase : ComposeRebuildPhase
  partialState : Option ComposePartialState

/-- What one workspace wants and the last generation that was completely provisioned for it. What
is written once and read by no modelled command is left out. -/
structure WorkspaceState where
  devcontainerProfile : IdentityToken
  desiredDevcontainerConfig : Text
  desiredFingerprints : PlanFingerprints
  lastUpAt : Option Text
  operation : OperationState
  lastError : Option SanitizedSummary
  interruptedComposeRebuild : Option ComposeRebuildRecovery
  active : Option ActiveGeneration

def sampleState (active : ActiveGeneration) : WorkspaceState where
  devcontainerProfile := sampleToken
  desiredDevcontainerConfig := ".devcontainer/devcontainer.json"
  desiredFingerprints := active.fingerprints
  lastUpAt := none
  operation := .idle
  lastError := none
  interruptedComposeRebuild := none
  active := some active

namespace WorkspaceState

def updateDesired (state : WorkspaceState) (profile : IdentityToken) (config : Text)
    (fingerprints : PlanFingerprints) : WorkspaceState :=
  { state with
    devcontainerProfile := profile
    desiredDevcontainerConfig := config
    desiredFingerprints := fingerprints }

def setOperation (state : WorkspaceState) (operation : OperationState) : WorkspaceState :=
  { state with operation }

def setLastError (state : WorkspaceState) (error : Option SanitizedSummary) : WorkspaceState :=
  { state with lastError := error }

def commitActive (state : WorkspaceState) (active : ActiveGeneration) (completedAt : Text) :
    WorkspaceState :=
  { state with
    active := some active
    lastUpAt := some completedAt
    operation := .idle
    lastError := none
    interruptedComposeRebuild := none }

end WorkspaceState

inductive WorkspaceStateError where
  | missing | unreadable
  | storage (stage : AtomicWriteStage)

/-- The workspace's state file beside everything else that adapters act on. They never
write this file. -/
structure Machine (σ : Type*) where
  file : Option WorkspaceState
  world : σ

namespace Machine
variable {σ : Type*}

def active (machine : Machine σ) : Option ActiveGeneration := machine.file.bind (·.active)

/-- A file that is unsafe, damaged or of another schema is one that cannot be read. -/
def loadWorkspaceState (readable : Bool) (machine : Machine σ) :
    Except WorkspaceStateError WorkspaceState × Machine σ :=
  (if readable then orFail machine.file .missing else .error .unreadable, machine)

def persistWorkspaceState (state : WorkspaceState) (failure : Option AtomicWriteStage)
    (machine : Machine σ) : Except WorkspaceStateError Unit × Machine σ :=
  let written := atomicWrite machine.file (some state) failure
  (written.2.mapError .storage, { machine with file := written.1 })

def onWorld {ε α : Type*} (operation : σ → Except ε α × σ) (machine : Machine σ) :
    Except ε α × Machine σ :=
  ((operation machine.world).1, { machine with world := (operation machine.world).2 })

def SameFile (s t : Machine σ) : Prop := t.file = s.file

theorem SameFile.trans (s t u : Machine σ) (hst : SameFile s t) (htu : SameFile t u) :
    SameFile s u := Eq.trans htu hst

variable {t : Machine σ}

theorem SameFile.active {s : Machine σ} (h : SameFile s t) : t.active = s.active :=
  congrArg (Option.bind · WorkspaceState.active) h

variable {st : WorkspaceState} {e : Option AtomicWriteStage} {machine : Machine σ}

theorem loadWorkspaceState_eq_ok {readable : Bool} :
    machine.loadWorkspaceState readable = (.ok st, t) ↔
      readable = true ∧ machine.file = some st ∧ t = machine := by
  unfold loadWorkspaceState
  rw [Prod.mk.injEq]
  cases readable with
  | false => simp
  | true =>
    rw [if_pos rfl,orFail_eq_ok,eq_comm (a := machine)]
    simp

theorem persistWorkspaceState_eq_ok {u : Unit} : machine.persistWorkspaceState st e = (.ok u, t) ↔
      e = none ∧ t = { machine with file := some st } := by
  unfold persistWorkspaceState
  rw [Prod.mk.injEq,mapError_eq_ok,AtomicWrite.atomicWrite_snd_eq_ok]
  constructor
  all_goals
    rintro ⟨rfl,rfl⟩
    exact ⟨rfl,rfl⟩

theorem onWorld_eq_ok {ε α : Type*} {op : σ → Except ε α × σ} {a : α} :
    machine.onWorld op = (.ok a, t) ↔
      ∃ world, op machine.world = (.ok a, world) ∧ t = { machine with world } := by
  unfold onWorld
  constructor
  · intro h
    obtain ⟨hr,rfl⟩ := Prod.mk.inj h
    exact ⟨_,Prod.ext hr rfl,rfl⟩
  · rintro ⟨world,h,rfl⟩
    rw [h]

theorem file_persistWorkspaceState : (machine.persistWorkspaceState st e).2.file =
      if AtomicWrite.takesEffect e then some st else machine.file :=
  AtomicWrite.atomicWrite_fst

/-- A write that keeps the active generation in memory keeps it on disk. -/
theorem active_persistWorkspaceState {current : Option ActiveGeneration}
    (hs : st.active = current) (hm : machine.active = current) :
    (machine.persistWorkspaceState st e).2.active = current := by
  rw [active,file_persistWorkspaceState]
  split_ifs
  · exact hs
  · exact hm

/-- A failed write that has no effect leaves the file as it was. -/
theorem sameFile_of_persistWorkspaceState {er : WorkspaceStateError}
    (hfa : AtomicWrite.AllOrNothing e)
    (h : machine.persistWorkspaceState st e = (.error er, t)) : SameFile machine t := by
  cases hs : e with
  | none =>
    have hok : machine.persistWorkspaceState st e = (.ok (), _) :=
      persistWorkspaceState_eq_ok.mpr ⟨hs,rfl⟩
    rw [h] at hok
    cases hok
  | some stg =>
    have hf : (machine.persistWorkspaceState st e).2.file = _ := file_persistWorkspaceState
    rw [h,hfa (by simp [hs]),if_neg Bool.false_ne_true] at hf
    exact hf

end Machine
end Cdenv.WorkspaceRecord
