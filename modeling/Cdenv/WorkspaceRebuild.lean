import Cdenv.StepLog
import Cdenv.WorkspaceRecord

/-!
# Replacing a generation

A rebuild prepares the new image while the old environment runs, moves the old primary
aside, makes the candidate ready, hands forwarding over and then commits the candidate as
the active generation. When a step after the build fails, the environment is asked to roll
back and the failure is recorded over what the file says.

Each of the three writes of the state file may fail at any stage. Checking what the
environment returned as the candidate counts as a step.
-/
namespace Cdenv.WorkspaceRebuild
open TextScan Fallible Identity Inspection WorkspaceRecord StepLog

structure PreparedRebuildPlan (Plan : Type) where
  profile : IdentityToken
  config : Text
  fingerprints : PlanFingerprints
  plan : Plan

inductive RebuildPhase where
  | built | quiescing | backupRenamed | candidateReady | forwardingHandedOff

structure RebuildRollbackRequest (Build : Type) where
  build : Build
  generation : GenerationId
  (previous candidate : Option ActiveGeneration)
  backupName : Text
  phase : RebuildPhase

structure RebuildCleanupRequest (Build : Type) where
  previous : Option ActiveGeneration
  replacement : ActiveGeneration
  build : Build
  backupName : Text

structure RebuildPlanner (σ Plan PlanError PreflightError : Type) where
  prepare : Option Text → WorkspaceState → Operation σ PlanError (PreparedRebuildPlan Plan)
  validateFrozen : PreparedRebuildPlan Plan → Operation σ PreflightError Unit

abbrev CheckoutStatus (σ StatusError : Type) := Operation σ StatusError Bool

structure RebuildEnvironment (σ Plan Build Error : Type) where
  build : PreparedRebuildPlan Plan → GenerationId → Bool → Operation σ Error Build
  quiesce : Option ActiveGeneration → Operation σ Error Unit
  backup : ActiveGeneration → Text → Operation σ Error Unit
  createReady : PreparedRebuildPlan Plan → Build → GenerationId → Operation σ Error ActiveGeneration
  handoff : Option ActiveGeneration → ActiveGeneration → Operation σ Error Unit
  rollback : RebuildRollbackRequest Build → Operation σ Error Unit
  cleanup : RebuildCleanupRequest Build → Operation σ Error Unit
  /-- How an error is displayed. -/
  describe : Error → Text

/-- Planner, checkout probe and environment: arbitrary operations on an arbitrary world. -/
structure Adapters (σ Plan Build PlanError PreflightError StatusError Error : Type) where
  planner : RebuildPlanner σ Plan PlanError PreflightError
  status : CheckoutStatus σ StatusError
  environment : RebuildEnvironment σ Plan Build Error

structure RebuildRequest where
  config : Option Text
  operation : OperationState
  backupName : Text
  noCache : Bool
  completedAt : Text

structure RebuildOutcome (Error : Type) where
  generation : GenerationId
  container : ContainerId
  checkoutHasChanges : Bool
  cleanupWarning : Option Error

inductive RebuildInvariantError where
  | generationOverflow | wrongGeneration | reusedContainer

def RebuildInvariantError.text : RebuildInvariantError → Text
  | .generationOverflow => "active generation cannot be incremented"
  | .wrongGeneration => "replacement returned an unexpected generation"
  | .reusedContainer => "replacement primary container ID did not change"

inductive ReplacementFailure (Error : Type) where
  | adapter (source : Error)
  | invariant (source : RebuildInvariantError)
  | state (source : WorkspaceStateError)

inductive RebuildError (PlanError PreflightError StatusError Error : Type) where
  | invalidOperation | lock
  | state (source : WorkspaceStateError)
  | desired (source : PlanError)
  | preflight (source : PreflightError)
  | checkoutStatus (source : StatusError)
  | generation (source : RebuildInvariantError)
  | replacement (phase : RebuildPhase) (primary : ReplacementFailure Error)
      (rollback : Option Error)
  | failureRecord (phase : RebuildPhase) (primary : ReplacementFailure Error)
      (rollback : Option Error) (state : WorkspaceStateError)

/-- What the host may do to one call. The lock may be refused, the state file may be
unreadable, and each write may fail. `describe` displays a failed write. -/
structure Host where
  (locked readable : Bool)
  (intent commit record : Option AtomicWriteStage)
  describe : WorkspaceStateError → Text

inductive RebuildStep where
  | build | quiesce | backup | create | check | handoff | commit | rollback | cleanup
deriving DecidableEq

/-- Why a replacement stopped. `owned` is what there is to roll back. -/
structure Failure (Build Error : Type) where
  phase : RebuildPhase
  primary : ReplacementFailure Error
  owned : Option (Build × Option ActiveGeneration)

structure Preparation (Plan : Type) where
  desired : PreparedRebuildPlan Plan
  checkoutHasChanges : Bool
  previous : Option ActiveGeneration
  generation : GenerationId
  state : WorkspaceState

def maxGeneration : ℕ := 2^64 - 1

/-- Generations are 64-bit and the increment saturates. -/
def nextGeneration (previous : Option ActiveGeneration) :
    Except RebuildInvariantError GenerationId :=
  let value := previous.elim 1 fun active => min (active.generation.value+1) maxGeneration
  if h : value = 0 ∨ previous.any (fun active => active.generation.value == value) = true then
    .error .generationOverflow
  else .ok ⟨value,Nat.pos_of_ne_zero fun hzero => h (.inl hzero)⟩

def validBackupName (value : Text) : Bool :=
  "cdenv-backup-".toList.isPrefixOf value && value.head? != some '-' &&
    !value.any isControl && byteLength value ≤ 255

/-- What the environment returned as ready must be new. -/
def checkCandidate (generation : GenerationId) (previous : Option ActiveGeneration)
    (candidate : ActiveGeneration) : Except RebuildInvariantError Unit :=
  if candidate.generation ≠ generation then .error .wrongGeneration
  else if previous.any (fun old => old.containerId == candidate.containerId) then
    .error .reusedContainer
  else .ok ()

section rebuild
variable {σ Plan Build PlanError PreflightError StatusError Error : Type}
variable (request : RebuildRequest) (environment : RebuildEnvironment σ Plan Build Error)
variable (adapters : Adapters σ Plan Build PlanError PreflightError StatusError Error)
variable (host : Host)

/-- A rebuild, or a part of it that may end it. -/
abbrev Adapters.Rebuilding
    (_adapters : Adapters σ Plan Build PlanError PreflightError StatusError Error) (α : Type) :=
  Steps (Machine σ) RebuildStep (RebuildError PlanError PreflightError StatusError Error) α

def ReplacementFailure.text : ReplacementFailure Error → Text
  | .adapter source => environment.describe source
  | .invariant source => source.text
  | .state source => host.describe source

/-- Everything that is checked before the rebuild is announced. -/
def planRebuild : adapters.Rebuilding (Preparation Plan) := do
  Steps.call (fun machine => (require (request.operation.kind == .rebuilding &&
    validBackupName request.backupName) (), machine)) fun _ => .invalidOperation
  Steps.call (fun machine => (require host.locked (), machine)) fun _ => .lock
  let state ← Steps.call (Machine.loadWorkspaceState host.readable) .state
  let desired ← Steps.call (Machine.onWorld (adapters.planner.prepare request.config state)) .desired
  Steps.call (Machine.onWorld (adapters.planner.validateFrozen desired)) .preflight
  let checkoutHasChanges ← Steps.call (Machine.onWorld adapters.status) .checkoutStatus
  let generation ← Steps.call (fun machine => (nextGeneration state.active, machine)) .generation
  let announced := ((state.updateDesired desired.profile desired.config
    desired.fingerprints).setOperation request.operation).setLastError none
  return ⟨desired,checkoutHasChanges,state.active,generation,announced⟩

/-- All that happens before the environment is asked for anything. -/
def prepareRebuild : adapters.Rebuilding (Preparation Plan) := do
  let plan ← planRebuild request adapters host
  Steps.call (Machine.persistWorkspaceState plan.state host.intent) .state
  return plan

variable (plan : Preparation Plan)

/-- Only a recorded primary is moved aside. -/
def backupPrevious (build : Build) : Steps (Machine σ) RebuildStep (Failure Build Error) Unit :=
  match plan.previous with
  | some old =>
    Steps.attempt .backup (Machine.onWorld (environment.backup old request.backupName))
      fun source => ⟨.backupRenamed,.adapter source,some (build, none)⟩
  | none => pure ()

/-- Everything between the build and the commit. -/
def makeReady (build : Build) : Steps (Machine σ) RebuildStep (Failure Build Error)
    ActiveGeneration := do
  Steps.attempt .quiesce (Machine.onWorld (environment.quiesce plan.previous))
    fun source => ⟨.quiescing,.adapter source,some (build, none)⟩
  backupPrevious request environment plan build
  let candidate ← Steps.attempt .create
    (Machine.onWorld (environment.createReady plan.desired build plan.generation))
    fun source => ⟨.backupRenamed,.adapter source,some (build, none)⟩
  Steps.attempt .check
    (fun machine => (checkCandidate plan.generation plan.previous candidate, machine))
    fun source => ⟨.candidateReady,.invariant source,some (build, some candidate)⟩
  Steps.attempt .handoff (Machine.onWorld (environment.handoff plan.previous candidate))
    fun source => ⟨.candidateReady,.adapter source,some (build, some candidate)⟩
  return candidate

def commitCandidate (build : Build) (candidate : ActiveGeneration) :
    Steps (Machine σ) RebuildStep (Failure Build Error) Unit :=
  Steps.attempt .commit (Machine.persistWorkspaceState
      (plan.state.commitActive candidate request.completedAt) host.commit)
    fun source => ⟨.forwardingHandedOff,.state source,some (build, some candidate)⟩

def buildImage : Steps (Machine σ) RebuildStep (Failure Build Error) Build :=
  Steps.attempt .build
    (Machine.onWorld (environment.build plan.desired plan.generation request.noCache))
    fun source => ⟨.built,.adapter source,none⟩

def replaceGeneration : Steps (Machine σ) RebuildStep (Failure Build Error)
    (Build × ActiveGeneration) := do
  let build ← buildImage request environment plan
  let candidate ← makeReady request environment plan build
  commitCandidate request host plan build candidate
  return (build, candidate)

/-- The failure is written over the announced record, and reported with it. -/
def recordFailure {α : Type} (operation : OperationState) (summary : Text)
    (failure : Failure Build Error) (rollback : Option Error) : adapters.Rebuilding α := do
  let recorded ← Steps.query (Machine.persistWorkspaceState
    ((plan.state.setOperation operation).setLastError (some (.redact summary))) host.record)
  match recorded with
  | .error state => Steps.fail (.failureRecord failure.phase failure.primary rollback state)
  | .ok () => Steps.fail (.replacement failure.phase failure.primary rollback)

def failWithoutRollback {α : Type} (failure : Failure Build Error) : adapters.Rebuilding α :=
  recordFailure adapters host plan .idle (failure.primary.text adapters.environment host) failure
    none

/-- A rollback that fails too is reported with the failure. -/
def failWithRollback {α : Type} (failure : Failure Build Error) (build : Build)
    (candidate : Option ActiveGeneration) : adapters.Rebuilding α := do
  let generation ← Steps.call (fun machine => (nextGeneration plan.previous, machine)) .generation
  let rollback ← Steps.observe .rollback (Machine.onWorld (adapters.environment.rollback
    ⟨build,generation,plan.previous,candidate,request.backupName,failure.phase⟩))
  match rollback with
  | .ok () =>
    recordFailure adapters host plan .idle (failure.primary.text adapters.environment host)
      failure none
  | .error source =>
    recordFailure adapters host plan plan.state.operation
      "rebuild failed and rollback was incomplete" failure (some source)

def recover {α : Type} (failure : Failure Build Error) : adapters.Rebuilding α :=
  match failure.owned with
  | none => failWithoutRollback adapters host plan failure
  | some (build, candidate) => failWithRollback request adapters host plan failure build candidate

def rebuildWorkspace : adapters.Rebuilding (RebuildOutcome Error) := do
  let plan ← prepareRebuild request adapters host
  let ready ← (replaceGeneration request adapters.environment host plan).handle
    (recover request adapters host plan)
  let cleaned ← Steps.observe .cleanup (Machine.onWorld (adapters.environment.cleanup
    ⟨plan.previous,ready.2,ready.1,request.backupName⟩))
  return {
    generation := plan.generation
    container := ready.2.containerId
    checkoutHasChanges := plan.checkoutHasChanges
    cleanupWarning := match cleaned with
      | .error source => some source
      | .ok () => none }

end rebuild

end Cdenv.WorkspaceRebuild
