import Cdenv.FileTree
import Cdenv.Interaction
import Cdenv.StateFile

/-!
# Creation of a workspace

A name is reserved by making its directory; the reservation removes what it owns unless it
is committed. State is written before Git clones, so that whatever goes wrong after the clone
can be recorded in it. Until the clone has succeeded every failure takes the reservation back.

The preparation before the reservation is not modelled; what it leaves is a `PreparedCreate`.
-/
namespace Cdenv.WorkspaceCreation
open TextScan Identity WorkspaceRecord StateFile Interaction Program

abbrev Path := List Text

def workspacesDir (root : Path) : Path := root++["workspaces".toList]

def workspaceNamespaceLock (root : Path) : Path :=
  workspacesDir root++[".namespace.lock".toList]

structure WorkspacePaths where
  cdenvRoot : Path
  name : WorkspaceName

namespace WorkspacePaths
variable (paths : WorkspacePaths)

def root : Path := workspacesDir paths.cdenvRoot++[paths.name.value]

def checkoutDir : Path := paths.root++["checkout".toList]

def checkout : Path := paths.checkoutDir++[paths.name.value]

def stateFile : Path := paths.root++["state.json".toList]

def lockFile : Path := paths.root++[".lock".toList]

def runtimeDir : Path := paths.root++["runtime".toList]

def logsDir : Path := paths.root++["logs".toList]

end WorkspacePaths

inductive Content where
  | state (raw : RawState)
  | bytes (data : Text)

abbrev Tree := FileTree Text Content

/-- Owners and modes are left out: what is not safe to read is read as an error. -/
def loadWorkspaceState (print : Text → Option Text) (tree : Tree) (path : Path) :
    Except LoadError NewWorkspaceState :=
  match tree.node path with
  | none => .error .missing
  | some (.file (.state raw)) => decodeWorkspaceState print raw
  | some (.file (.bytes _)) => .error .corrupt
  | some .directory => .error .managedPath
  | some .other => .error .managedPath

inductive ManagedPathState where
  | missing | valid

inductive CreateFailure where
  | alreadyExists
  | io (source : Text)

/-- The three ways in which something is removed: an owned path in `cleanup`, the checkout in
`remove_incomplete_checkout` and the state file in `remove_regular_if_present`. -/
inductive Removal where
  | owned | checkout | state

inductive RemovalAction where
  | removeDir | removeFile | removeDirAll

/-- How a node is removed, or why it is left. -/
def Removal.action : Removal → FileNode Content → Except Text RemovalAction
  | .owned, .directory => .ok .removeDir
  | .owned, .file _ => .ok .removeFile
  | .owned, .other => .error "operation-owned path changed file kind"
  | .checkout, .directory => .ok .removeDirAll
  | .checkout, _ => .error "operation-owned checkout changed to an unsafe file kind"
  | .state, .file _ => .ok .removeFile
  | .state, _ => .error "operation-owned state changed to an unsafe file kind"

/-- Everything outside is asked: the file system, the locks, Git, the credential binding and the
token that says whether the user has cancelled. -/
inductive CreateCall where
  | ensurePrivateDirectory (path : Path)
  | ensureLockFile (path : Path)
  | acquire (path : Path)
  | inspectDirectory (path : Path)
  | createDirectory (path : Path)
  /-- The inspection without following links and the removal after it; nothing there is no
  failure. -/
  | remove (removal : Removal) (path : Path)
  | persistWorkspaceState (path : Path) (state : NewWorkspaceState)
  | cloneRepository (source : Text) (checkout : Path)
  | bindCreatedWorkspace (state : NewWorkspaceState) (explicitName : Bool)
  | isCancelled
  | validateExplicitConfig (checkout : Path) (selection : Text)

abbrev CreateAnswer : CreateCall → Type
  | .ensurePrivateDirectory _ | .ensureLockFile _ | .acquire _ | .remove _ _
  | .cloneRepository _ _ | .bindCreatedWorkspace _ _ => Except Text Unit
  | .inspectDirectory _ => Except Text ManagedPathState
  | .createDirectory _ => Except CreateFailure Unit
  | .persistWorkspaceState _ _ => Except AtomicWriteStage Unit
  | .isCancelled => Bool
  | .validateExplicitConfig _ _ => Except Text DesiredConfigPath

abbrev Creation (ε : Type) (α : Type) := Program CreateAnswer ε α

inductive ReservationError where
  | storage (source : Text)
  | lock (source : Text)
  | managedPath (source : Text)
  | alreadyReserved (name : WorkspaceName)
  | create (path : Path) (source : Text)
  | rollback (path : Path) (source : Text)
deriving DecidableEq

def removeOwned (path : Path) : Creation ReservationError Unit :=
  expect (call (CreateCall.remove .owned path)) (.rollback path)

def cleanup (owned : List Path) : Creation ReservationError Unit := owned.reverse.forM removeOwned

section
variable {ε α : Type}

/-- A reservation that is dropped without being committed. -/
def dropReservation (owned : List Path) : Creation ε Unit := do
  let _ ← (cleanup owned).attempt
  return ()

/-- A step that returns early on failure, so that the reservation is dropped. -/
def guarded (owned : List Path) (step : Creation ε α) : Creation ε α := do
  match ← step.attempt with
  | .ok a => return a
  | .error e => do
    dropReservation owned
    fail e

end

/-- A rollback that fails leaves the reservation uncommitted. -/
def rollback (owned : List Path) : Creation ReservationError Unit := guarded owned (cleanup owned)

def ensureDirectory (path : Path) : Creation ReservationError Unit :=
  expect (call (CreateCall.ensurePrivateDirectory path)) .storage

def ensureLock (path : Path) : Creation ReservationError Unit :=
  expect (call (CreateCall.ensureLockFile path)) .lock

def createRoot (paths : WorkspacePaths) : Creation ReservationError Unit :=
  expect (call (CreateCall.createDirectory paths.root)) fun
    | .alreadyExists => .alreadyReserved paths.name
    | .io source => .create paths.root source

/-- The directories and the lock of the workspace; each is owned before it is made. -/
def createSkeleton (paths : WorkspacePaths) : Creation ReservationError (List Path) := do
  let owned := [paths.root]
  guarded owned (ensureDirectory paths.root)
  let owned := owned++[paths.checkoutDir]
  guarded owned (ensureDirectory paths.checkoutDir)
  let owned := owned++[paths.runtimeDir]
  guarded owned (ensureDirectory paths.runtimeDir)
  let owned := owned++[paths.logsDir]
  guarded owned (ensureDirectory paths.logsDir)
  let owned := owned++[paths.lockFile]
  guarded owned (ensureLock paths.lockFile)
  return owned

def claimName (paths : WorkspacePaths) : Creation ReservationError Unit := do
  ensureDirectory paths.cdenvRoot
  ensureDirectory (workspacesDir paths.cdenvRoot)
  ensureLock (workspaceNamespaceLock paths.cdenvRoot)
  expect (call (CreateCall.acquire (workspaceNamespaceLock paths.cdenvRoot))) .lock
  match ← expect (call (CreateCall.inspectDirectory paths.root)) .managedPath with
  | .valid => fail (.alreadyReserved paths.name)
  | .missing => createRoot paths

def reserveWorkspace (paths : WorkspacePaths) : Creation ReservationError (List Path) := do
  claimName paths
  createSkeleton paths

inductive PlanFingerprintCategory where
  | build | create | runtime

/-- A fingerprint key is known by the digests it gives. -/
structure Installation where
  id : IdentityToken
  fingerprintKey : Except Text (PlanFingerprintCategory → List Text → KeyedDigest)

def pendingPlanDomain : Text := "create-checkout-only-v1"

inductive CreateWorkspaceError where
  | reservation (source : ReservationError)
  | lock (source : Text)
  | state (stage : AtomicWriteStage)
  | git (source : Text)
  | managedPath (source : Text)
  | credentials (source : Text)
  | config (source : Text)
  | fingerprintKeyUnavailable (reason : Text)
  | missingCheckout (path : Path)
  | cancelledAfterClone
  | initialStateRollback (state : AtomicWriteStage) (cleanup : ReservationError ⊕ Text)
  | cloneRollback (git : Text) (cleanup : ReservationError ⊕ Text)
  | recordFailure (stage : AtomicWriteStage)
deriving DecidableEq

def pendingFingerprints (installation : Installation) (config : DesiredConfigPath) :
    Except CreateWorkspaceError PlanFingerprints :=
  match installation.fingerprintKey with
  | .error reason => .error (.fingerprintKeyUnavailable reason)
  | .ok digestPlan =>
    let digest := fun category => digestPlan category [pendingPlanDomain,config.value]
    .ok ⟨digest .build,digest .create,digest .runtime⟩

structure CreateWorkspaceRequest where
  source : Text
  explicitName : Bool
  config : Option Text

/-- What the preparation leaves. It has computed the fingerprints, so the key is there. The
source is the one of the request or the path that it canonicalizes to. -/
structure PreparedCreate (print : Text → Option Text) where
  installation : Installation
  name : WorkspaceName
  sanitizedSource : Text
  timestamp : StateTimestamp
  profile : IdentityToken
  desiredConfig : DesiredConfigPath
  fingerprints : PlanFingerprints
  operation : OperationState
  sanitized : ∃ source, sanitizedSource = sanitizeSource print source
  computed : pendingFingerprints installation desiredConfig = .ok fingerprints
  creating : operation.kind = .creating
  started : operation.startedAt = some timestamp.value

/-- `WorkspaceState::new`, with the operation that is under way. -/
def PreparedCreate.initialState {print : Text → Option Text} (prepared : PreparedCreate print) :
    NewWorkspaceState where
  installationId := prepared.installation.id
  name := prepared.name
  repositorySource := prepared.sanitizedSource
  devcontainerProfile := prepared.profile
  desiredDevcontainerConfig := prepared.desiredConfig
  desiredFingerprints := prepared.fingerprints
  createdAt := prepared.timestamp
  operation := prepared.operation
  lastError := none
  started := by
    rw [prepared.started]
    exact prepared.timestamp.valid

structure CreatedWorkspace where
  name : WorkspaceName
  checkout : Path
deriving DecidableEq

section
variable {α : Type}

/-- Removal of what the reservation does not own, then its rollback. -/
def removeAndRollback (owned : List Path) (removals : List (Removal × Path)) :
    Creation (ReservationError ⊕ Text) Unit := do
  guarded owned (removals.forM fun r => expect (call (CreateCall.remove r.1 r.2)) Sum.inr)
  expect (rollback owned).attempt Sum.inl

def rollbackInitialStateFailure (stateFile : Path) (owned : List Path)
    (state : AtomicWriteStage) : Creation CreateWorkspaceError α := do
  match ← (removeAndRollback owned [(.state, stateFile)]).attempt with
  | .ok () => fail (.state state)
  | .error cleanup => fail (.initialStateRollback state cleanup)

def rollbackCloneFailure (checkout stateFile : Path) (owned : List Path) (git : Text) :
    Creation CreateWorkspaceError α := do
  match ← (removeAndRollback owned [(.checkout, checkout),(.state, stateFile)]).attempt with
  | .ok () => fail (.git git)
  | .error cleanup => fail (.cloneRollback git cleanup)

variable (describe : CreateWorkspaceError → Text)

def recordPostCloneFailure (stateFile : Path) (state : NewWorkspaceState)
    (error : CreateWorkspaceError) : Creation CreateWorkspaceError α := do
  let state := state.setLastError (some (SanitizedSummary.redact (describe error)))
  expect (call (CreateCall.persistWorkspaceState stateFile state)) .recordFailure
  fail error

def complete (paths : WorkspacePaths) (state : NewWorkspaceState) :
    Creation CreateWorkspaceError CreatedWorkspace := do
  let completed := state.setIdle.setLastError none
  match ← call (CreateCall.persistWorkspaceState paths.stateFile completed) with
  | .error stage => recordPostCloneFailure describe paths.stateFile state (.state stage)
  | .ok () => return { name := paths.name, checkout := paths.checkout }

variable (request : CreateWorkspaceRequest) {print : Text → Option Text}
variable (prepared : PreparedCreate print)

def selectConfig (paths : WorkspacePaths) (state : NewWorkspaceState) :
    Creation CreateWorkspaceError CreatedWorkspace := do
  match request.config with
  | none => complete describe paths state
  | some config =>
    match ← call (CreateCall.validateExplicitConfig paths.checkout config) with
    | .error source => recordPostCloneFailure describe paths.stateFile state (.config source)
    | .ok validated =>
      match pendingFingerprints prepared.installation validated with
      | .error error => fail error
      | .ok fingerprints =>
        complete describe paths (state.updateDesired prepared.profile validated fingerprints)

def bindPermissions (paths : WorkspacePaths) (state : NewWorkspaceState) :
    Creation CreateWorkspaceError CreatedWorkspace := do
  match ← call (CreateCall.bindCreatedWorkspace state request.explicitName) with
  | .error source => recordPostCloneFailure describe paths.stateFile state (.credentials source)
  | .ok () =>
    if ← call CreateCall.isCancelled then
      recordPostCloneFailure describe paths.stateFile state .cancelledAfterClone
    else selectConfig describe request prepared paths state

/-- From here on the reservation is committed. -/
def afterClone (paths : WorkspacePaths) (state : NewWorkspaceState) :
    Creation CreateWorkspaceError CreatedWorkspace := do
  match ← call (CreateCall.inspectDirectory paths.checkout) with
  | .ok .missing =>
    recordPostCloneFailure describe paths.stateFile state (.missingCheckout paths.checkout)
  | .error source => recordPostCloneFailure describe paths.stateFile state (.managedPath source)
  | .ok .valid => bindPermissions describe request prepared paths state

def cloneInto (paths : WorkspacePaths) (owned : List Path) (state : NewWorkspaceState) :
    Creation CreateWorkspaceError CreatedWorkspace := do
  match ← call (CreateCall.cloneRepository request.source paths.checkout) with
  | .error git => rollbackCloneFailure paths.checkout paths.stateFile owned git
  | .ok () => afterClone describe request prepared paths state

def createWorkspace (cdenvRoot : Path) : Creation CreateWorkspaceError CreatedWorkspace := do
  let paths : WorkspacePaths := { cdenvRoot, name := prepared.name }
  let owned ← expect (reserveWorkspace paths).attempt CreateWorkspaceError.reservation
  guarded owned (expect (call (CreateCall.acquire paths.lockFile)) CreateWorkspaceError.lock)
  let state := prepared.initialState
  match ← call (CreateCall.persistWorkspaceState paths.stateFile state) with
  | .error stage => rollbackInitialStateFailure paths.stateFile owned stage
  | .ok () => cloneInto describe request prepared paths owned state

end
end Cdenv.WorkspaceCreation
