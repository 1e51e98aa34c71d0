import Cdenv.StepLog
import Cdenv.WorkspaceRecord

/-!
# Reconciling desired and active state

`create` and `up` share one transaction. It plans what is desired, announces the operation
in the state file, asks the environment to become ready and commits what the environment
returned, once it is checked. Steps of this transaction are not logged.
-/
namespace Cdenv.WorkspaceReconciliation
open TextScan Fallible Identity WorkspaceRecord StepLog

inductive FeatureSourcePolicy where
  | resolveForCreation | frozenOffline

structure CategoryDrift where
  build : Bool := false
  create : Bool := false
  runtime : Bool := false

def CategoryDrift.between (desired active : PlanFingerprints) : CategoryDrift where
  build := desired.build != active.build
  create := desired.create != active.create
  runtime := desired.runtime != active.runtime

inductive ReconciliationWarning where
  | buildDrift | createDrift

inductive EnvironmentTransition where
  | created | started | alreadyRunning

inductive RuntimeReconciliation where
  | current | applied
deriving DecidableEq

structure PreparedDesiredPlan (Plan : Type) where
  profile : IdentityToken
  config : Text
  fingerprints : PlanFingerprints
  plan : Plan

structure ReconciliationRequest where
  config : Option Text
  operation : OperationState
  completedAt : Text

structure ReconciliationPlanner (σ Plan PlanError PreflightError : Type) where
  prepare : Option Text → WorkspaceState → FeatureSourcePolicy →
    Operation σ PlanError (PreparedDesiredPlan Plan)
  preflight : PreparedDesiredPlan Plan → FeatureSourcePolicy → Operation σ PreflightError Unit
  describe : PreflightError → Text

structure EnvironmentReconciliationRequest (Plan : Type) where
  desired : PreparedDesiredPlan Plan
  active : Option ActiveGeneration
  drift : CategoryDrift

structure ReadyEnvironment where
  active : ActiveGeneration
  transition : EnvironmentTransition
  runtime : RuntimeReconciliation

structure EnvironmentReconciler (σ Plan Error : Type) where
  reconcile : EnvironmentReconciliationRequest Plan → Operation σ Error ReadyEnvironment
  describe : Error → Text

/-- Planner and environment: arbitrary operations on an arbitrary world. -/
structure Adapters (σ Plan PlanError PreflightError Error : Type) where
  planner : ReconciliationPlanner σ Plan PlanError PreflightError
  environment : EnvironmentReconciler σ Plan Error

structure ReconciliationOutcome where
  generation : GenerationId
  transition : EnvironmentTransition
  runtime : RuntimeReconciliation
  warnings : List ReconciliationWarning

inductive ReconciliationError (PlanError PreflightError Error : Type) where
  | lock
  | state (source : WorkspaceStateError)
  | desired (source : PlanError)
  | preflight (source : PreflightError)
  | indeterminateLifecycle
  | environment (source : Error)
  | implicitReplacement | invalidReadiness
  | failureRecord (message : Text) (state : WorkspaceStateError)

/-- What the host may do to one call: refuse the lock, hide the file, fail a write. -/
structure Host where
  (locked readable : Bool)
  (intent record commit : Option AtomicWriteStage)

inductive ReadinessBoundaryError where
  | implicitReplacement | invalidCategories

def ReadinessBoundaryError.message : ReadinessBoundaryError → Text
  | .implicitReplacement =>
    "ordinary reconciliation attempted an implicit generation replacement"
  | .invalidCategories => "environment readiness violated the category commit boundary"

/-- Which fingerprints a ready generation may have. -/
def validCategories (previous : Option ActiveGeneration) (desired : PlanFingerprints)
    (drift : CategoryDrift) (ready : ReadyEnvironment) : Bool :=
  match previous with
  | none => ready.active.fingerprints == desired
  | some active =>
    ready.active.fingerprints.build == active.fingerprints.build &&
      ready.active.fingerprints.create == active.fingerprints.create &&
      ready.runtime == if drift.runtime then .applied else .current

def commitRuntimeFingerprint (active : ActiveGeneration) (runtime : KeyedDigest) :
    ActiveGeneration :=
  { active with fingerprints := { active.fingerprints with runtime } }

/-- The readiness that is committed, if it keeps the boundaries of an ordinary `up`. -/
def validateReadiness (previous : Option ActiveGeneration) (desired : PlanFingerprints)
    (drift : CategoryDrift) (ready : ReadyEnvironment) :
    Except ReadinessBoundaryError ReadyEnvironment :=
  if previous.any fun active => active.generation != ready.active.generation then
    .error .implicitReplacement
  else if !validCategories previous desired drift ready then .error .invalidCategories
  else if drift.runtime then
    .ok { ready with active := commitRuntimeFingerprint ready.active desired.runtime }
  else .ok ready

structure Preparation (Plan : Type) where
  desired : PreparedDesiredPlan Plan
  policy : FeatureSourcePolicy
  previous : Option ActiveGeneration
  drift : CategoryDrift
  state : WorkspaceState

def featurePolicy (state : WorkspaceState) : FeatureSourcePolicy :=
  if state.active.isSome then .frozenOffline else .resolveForCreation

/-- Build and create inputs that differ from the active generation are only warned about; a
runtime input that differs is applied. -/
def driftFrom (previous : Option ActiveGeneration) (desired : PlanFingerprints) : CategoryDrift :=
  previous.elim {} fun active => .between desired active.fingerprints

section reconcile
variable {σ Plan PlanError PreflightError Error : Type}
variable (request : ReconciliationRequest)
variable (adapters : Adapters σ Plan PlanError PreflightError Error) (host : Host)

/-- A reconciliation, or a part of it that may end it. -/
abbrev Adapters.Reconciling (_adapters : Adapters σ Plan PlanError PreflightError Error)
    (α : Type) :=
  Steps (Machine σ) Empty (ReconciliationError PlanError PreflightError Error) α

/-- Reads and plans; `announced` is the record to be written. -/
def planReconciliation : adapters.Reconciling (Preparation Plan) := do
  Steps.call (fun machine => (require host.locked (), machine)) fun _ => .lock
  let state ← Steps.call (Machine.loadWorkspaceState host.readable) .state
  let desired ← Steps.call (Machine.onWorld (adapters.planner.prepare request.config state
    (featurePolicy state))) .desired
  Steps.call (fun machine => (require (!state.active.any (·.lifecycle.indeterminate)) (), machine))
    fun _ => .indeterminateLifecycle
  let announced := ((state.updateDesired desired.profile desired.config
    desired.fingerprints).setOperation request.operation).setLastError none
  return ⟨desired,featurePolicy state,state.active,
    driftFrom state.active desired.fingerprints,announced⟩

variable (plan : Preparation Plan)

/-- A failure is recorded before it is reported. -/
def recordFailure {α : Type} (message : Text)
    (unrecorded : WorkspaceStateError → ReconciliationError PlanError PreflightError Error)
    (error : ReconciliationError PlanError PreflightError Error) : adapters.Reconciling α := do
  Steps.call (Machine.persistWorkspaceState
    ((plan.state.setOperation .idle).setLastError (some (.redact message))) host.record) unrecorded
  Steps.fail error

def acceptReadiness (ready : ReadyEnvironment) : adapters.Reconciling ReadyEnvironment :=
  match validateReadiness plan.previous plan.desired.fingerprints plan.drift ready with
  | .ok ready => pure ready
  | .error .implicitReplacement =>
    recordFailure adapters host plan ReadinessBoundaryError.implicitReplacement.message .state
      .implicitReplacement
  | .error .invalidCategories =>
    recordFailure adapters host plan ReadinessBoundaryError.invalidCategories.message .state
      .invalidReadiness

def reconcileEnvironment : adapters.Reconciling ReadyEnvironment := do
  let reconciled ← Steps.query (Machine.onWorld (adapters.environment.reconcile
    ⟨plan.desired,plan.previous,plan.drift⟩))
  match reconciled with
  | .ok ready => acceptReadiness adapters host plan ready
  | .error source =>
    recordFailure adapters host plan (adapters.environment.describe source)
      (.failureRecord (adapters.environment.describe source)) (.environment source)

def reachReadiness : adapters.Reconciling ReadyEnvironment := do
  let checked ← Steps.query (Machine.onWorld (adapters.planner.preflight plan.desired plan.policy))
  match checked with
  | .ok () => reconcileEnvironment adapters host plan
  | .error source =>
    recordFailure adapters host plan (adapters.planner.describe source)
      (.failureRecord (adapters.planner.describe source)) (.preflight source)

def warnings (drift : CategoryDrift) : List ReconciliationWarning :=
  (if drift.build then [.buildDrift] else [])++if drift.create then [.createDrift] else []

def reconcileWorkspace : adapters.Reconciling ReconciliationOutcome := do
  let plan ← planReconciliation request adapters host
  Steps.call (Machine.persistWorkspaceState plan.state host.intent) .state
  let ready ← reachReadiness adapters host plan
  Steps.call (Machine.persistWorkspaceState
    (plan.state.commitActive ready.active request.completedAt) host.commit) .state
  return ⟨ready.active.generation,ready.transition,ready.runtime,warnings plan.drift⟩

end reconcile

end Cdenv.WorkspaceReconciliation
