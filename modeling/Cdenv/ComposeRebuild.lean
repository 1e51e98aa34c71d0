import Cdenv.Interaction
import Cdenv.WorkspaceRecord

/-!
# Replacement of a Compose project

Every image is built first. Then the services are recreated in place, so a failure from
there on leaves a project that may be partly old and partly new, and the error says what
is known about each service. The plan, the adapter's build claim and its error are parameters.
-/
namespace Cdenv.WorkspaceRecord.ComposePartialState
open TextScan Inspection

def isHealthy : ComposePartialService → Bool
  | .present _ running health => running && health == .healthy
  | _ => false

def isCompleteHealthy (state : ComposePartialState) : Bool := state.services.values.all isHealthy

def healthyManagedSet (state : ComposePartialState) : Option (OrderedMap Text ContainerId) :=
  if state.isCompleteHealthy then
    some (state.services.filterMapValues fun service =>
      match service with
      | .present container _ _ => some container
      | _ => none)
  else none

end Cdenv.WorkspaceRecord.ComposePartialState

namespace Cdenv.ComposeRebuild
open TextScan Identity Inspection WorkspaceRecord Interaction Program

structure ObservedComposeService where
  service : Text
  container : ContainerId
  running : Bool
  health : ComposeServiceHealth

def grouped (observed : List ObservedComposeService) :
    OrderedMap Text (List ObservedComposeService) :=
  observed.foldl (fun found service =>
    found.insert service.service ((found.get? service.service).getD []++[service])) .empty

def classifyService : List ObservedComposeService → ComposePartialService
  | [] => .missing
  | [observed] => .present observed.container observed.running observed.health
  | found => .ambiguous ((found.map (·.container)).insertionSort fun a b => a.value ≤ b.value)

def classifyComposePartialState (generation : GenerationId) (desiredServices : List Text)
    (observed : List ObservedComposeService) : ComposePartialState :=
  ⟨generation,.ofList (desiredServices.map fun service =>
    (service, classifyService (((grouped observed).get? service).getD [])))⟩

theorem get?_grouped (obs : List ObservedComposeService) (svc : Text) :
    ((grouped obs).get? svc).getD [] = obs.filter (·.service = svc) := by
  have hfo : ∀ fs : OrderedMap Text (List ObservedComposeService), ((obs.foldl (fun fs svc =>
        fs.insert svc.service ((fs.get? svc.service).getD []++[svc])) fs).get? svc).getD [] =
        (fs.get? svc).getD []++obs.filter (·.service = svc) := by
    induction obs with
    | nil =>
      intro fs
      simp
    | cons fst xs ih =>
      intro fs
      rw [List.foldl_cons,ih,OrderedMap.get?_insert]
      by_cases hf : fst.service = svc
      all_goals simp [hf]
  exact hfo .empty

/-- Each desired service was seen as exactly one container, running and healthy. -/
def AllHealthy (desiredServices : List Text) (observed : List ObservedComposeService)
    (managed : OrderedMap Text ContainerId) : Prop :=
  ∀ service ∈ desiredServices, ∃ found,
    observed.filter (·.service = service) = [found] ∧ found.running = true ∧
      found.health = .healthy ∧ managed.get? service = some found.container

theorem classifyService_healthy {fs : List ObservedComposeService}
    (h : ComposePartialState.isHealthy (classifyService fs) = true) :
    ∃ obs, fs = [obs] ∧ obs.running = true ∧ obs.health = .healthy := by
  match fs, h with
  | [obs], h =>
    simp only [classifyService,ComposePartialState.isHealthy,Bool.and_eq_true,beq_iff_eq] at h
    exact ⟨obs,rfl,h⟩

theorem allHealthy_of_healthyManagedSet {gen : GenerationId} {desiredServices : List Text}
    {obs : List ObservedComposeService} {managed : OrderedMap Text ContainerId}
    (h : (classifyComposePartialState gen desiredServices obs).healthyManagedSet =
      some managed) : AllHealthy desiredServices obs managed := by
  unfold ComposePartialState.healthyManagedSet at h
  split_ifs at h with hhe
  cases h
  intro svc hs
  have hg : (classifyComposePartialState gen desiredServices obs).services.get?
      svc = some (classifyService (obs.filter (·.service = svc))) := by
    unfold classifyComposePartialState
    rw [OrderedMap.get?_ofList_map,if_pos hs,get?_grouped]
  obtain ⟨fs,hf,hr,hh⟩ := classifyService_healthy
    (List.all_eq_true.mp hhe _ (OrderedMap.mem_values.mpr ⟨svc,hg⟩))
  refine ⟨fs,hf,hr,hh,OrderedMap.get?_filterMapValues.mpr ⟨_,hg,?_⟩⟩
  rw [hf]
  rfl

structure ComposeRebuildRequest (P : Type) where
  desired : P
  managedServices : List Text
  primaryService : Text
  generation : GenerationId
  previousPrimary : Option ContainerId
  noCache : Bool

inductive ComposeCleanupKind where
  | orphans | generatedImages

structure ComposeCleanupWarning (E : Type) where
  kind : ComposeCleanupKind
  source : E

structure ComposeRebuildOutcome (E : Type) where
  active : ActiveGeneration
  managed : OrderedMap Text ContainerId
  cleanupWarnings : List (ComposeCleanupWarning E)

inductive ComposePartialEvidence (E : Type) where
  | inspected (state : ComposePartialState)
  | inspectionFailed (source : E)

inductive ComposeRebuildInvariantError where
  | invalidManagedSet | reusedPrimary | invalidReadiness

inductive ComposeRebuildError (E : Type) where
  | build (source : E)
  | cancelledBeforeRecreation
  | cancelled (phase : ComposeRebuildPhase) (evidence : ComposePartialEvidence E)
  | partialFailure (phase : ComposeRebuildPhase) (source : E) (evidence : ComposePartialEvidence E)
  | invariant (phase : ComposeRebuildPhase) (source : ComposeRebuildInvariantError)
      (evidence : ComposePartialEvidence E)

/-- The rebuild returns an error, or indexes the managed set with a service it lacks. -/
inductive RebuildStop (E : Type) where
  | error (source : ComposeRebuildError E)
  | panic

/-- The adapter that runs Docker, and the cancellation token. -/
inductive RuntimeCall (P B : Type) where
  | isCancelled
  | buildComplete (desired : P) (generation : GenerationId) (noCache : Bool)
  | forceRecreate (desired : P) (build : B) (generation : GenerationId)
  | inspectServices (generation : GenerationId)
  | completeReadiness (desired : P) (build : B) (generation : GenerationId)
      (managed : OrderedMap Text ContainerId)
  | handoffForwarding (active : ActiveGeneration)
  | commitActive (active : ActiveGeneration) (managed : OrderedMap Text ContainerId)
  | removeOrphans (managed : OrderedMap Text ContainerId)
  | cleanupGeneratedImages

variable {P B E : Type}

abbrev RuntimeAnswer (E : Type) : RuntimeCall P B → Type
  | .isCancelled => Bool
  | .buildComplete .. => Except E B
  | .inspectServices _ => Except E (List ObservedComposeService)
  | .completeReadiness .. => Except E ActiveGeneration
  | _ => Except E Unit

abbrev Rebuild (P B E : Type) := Program (RuntimeAnswer (P := P) (B := B) E) (RebuildStop E)

section runtime

def isCancelled : Rebuild P B E Bool := call RuntimeCall.isCancelled

def buildComplete (desired : P) (generation : GenerationId) (noCache : Bool) :
    Rebuild P B E (Except E B) := call (RuntimeCall.buildComplete desired generation noCache)

def forceRecreate (desired : P) (build : B) (generation : GenerationId) :
    Rebuild P B E (Except E Unit) := call (RuntimeCall.forceRecreate desired build generation)

def inspectServices (generation : GenerationId) :
    Rebuild P B E (Except E (List ObservedComposeService)) :=
  call (RuntimeCall.inspectServices generation)

def completeReadiness (desired : P) (build : B) (generation : GenerationId)
    (managed : OrderedMap Text ContainerId) : Rebuild P B E (Except E ActiveGeneration) :=
  call (RuntimeCall.completeReadiness desired build generation managed)

def handoffForwarding (active : ActiveGeneration) : Rebuild P B E (Except E Unit) :=
  call (RuntimeCall.handoffForwarding active)

def commitActive (active : ActiveGeneration) (managed : OrderedMap Text ContainerId) :
    Rebuild P B E (Except E Unit) := call (RuntimeCall.commitActive active managed)

def removeOrphans (managed : OrderedMap Text ContainerId) : Rebuild P B E (Except E Unit) :=
  call (RuntimeCall.removeOrphans managed)

def cleanupGeneratedImages : Rebuild P B E (Except E Unit) := call RuntimeCall.cleanupGeneratedImages

end runtime

namespace ComposeRebuildError

def evidence? : ComposeRebuildError E → Option (ComposeRebuildPhase × ComposePartialEvidence E)
  | .cancelled phase evidence => some (phase, evidence)
  | .partialFailure phase _ evidence => some (phase, evidence)
  | .invariant phase _ evidence => some (phase, evidence)
  | _ => none

end ComposeRebuildError

def isValidRequest (request : ComposeRebuildRequest P) : Bool :=
  ComposeLifecycle.isManagedSet request.managedServices request.primaryService

def validateRequest (request : ComposeRebuildRequest P) : Rebuild P B E Unit :=
  if isValidRequest request then pure ()
  else fail (.error (.invariant .buildFirst .invalidManagedSet
    (.inspected ⟨request.generation,.empty⟩)))

section
variable (request : ComposeRebuildRequest P)

def classified (observed : List ObservedComposeService) : ComposePartialState :=
  classifyComposePartialState request.generation request.managedServices observed

def evidence : Rebuild P B E (ComposePartialEvidence E) := do
  match ← inspectServices request.generation with
  | .ok observed => return .inspected (classified request observed)
  | .error error => return .inspectionFailed error

def partialError {α : Type} (phase : ComposeRebuildPhase) (source : E) : Rebuild P B E α := do
  fail (.error (.partialFailure phase source (← evidence request)))

def cancelled {α : Type} (phase : ComposeRebuildPhase) : Rebuild P B E α := do
  fail (.error (.cancelled phase (← evidence request)))

def cleanupWarning (kind : ComposeCleanupKind) : Except E Unit → List (ComposeCleanupWarning E)
  | .ok _ => []
  | .error source => [⟨kind,source⟩]

def unlessCancelled (stop : Rebuild P B E Unit) : Rebuild P B E Unit := do
  if ← isCancelled then stop

def buildFirst : Rebuild P B E B := do
  validateRequest request
  unlessCancelled (fail (.error .cancelledBeforeRecreation))
  let build ← expect (buildComplete request.desired request.generation request.noCache)
    fun source => .error (.build source)
  unlessCancelled (fail (.error .cancelledBeforeRecreation))
  return build

def recreate (build : B) : Rebuild P B E Unit := do
  match ← forceRecreate request.desired build request.generation with
  | .error source => partialError request .recreation source
  | .ok _ => unlessCancelled (cancelled request .recreation)

/-- The classified services, the managed set and its primary. -/
def discover : Rebuild P B E (ComposePartialState × OrderedMap Text ContainerId × ContainerId) := do
  let observed ← expect (inspectServices request.generation) fun source =>
    .error (.partialFailure .managedSet source (.inspected (classified request [])))
  let seen := classified request observed
  match seen.healthyManagedSet with
  | none => fail (.error (.invariant .managedSet .invalidReadiness (.inspected seen)))
  | some managed =>
    match managed.get? request.primaryService with
    | none => fail .panic
    | some primary =>
      if request.previousPrimary = some primary then
        fail (.error (.invariant .managedSet .reusedPrimary (.inspected seen)))
      else
        unlessCancelled (fail (.error (.cancelled .managedSet (.inspected seen))))
        return (seen, managed, primary)

def makeReady (build : B) (seen : ComposePartialState) (managed : OrderedMap Text ContainerId)
    (primary : ContainerId) : Rebuild P B E ActiveGeneration := do
  let active ← expect (completeReadiness request.desired build request.generation managed)
    fun source => .error (.partialFailure .readiness source (.inspected seen))
  if active.generation ≠ request.generation ∨ active.containerId ≠ primary then
    fail (.error (.invariant .readiness .invalidReadiness (.inspected seen)))
  else
    unlessCancelled (cancelled request .readiness)
    return active

def handOver (active : ActiveGeneration) (seen : ComposePartialState) : Rebuild P B E Unit := do
  expect (handoffForwarding active) fun source =>
    .error (.partialFailure .forwarding source (.inspected seen))
  unlessCancelled (cancelled request .forwarding)

def rebuild : Rebuild P B E (ComposeRebuildOutcome E) := do
  let build ← buildFirst request
  recreate request build
  let (seen, managed, primary) ← discover request
  let active ← makeReady request build seen managed primary
  handOver request active seen
  expect (commitActive active managed) fun source =>
    .error (.partialFailure .activeCommit source (.inspected seen))
  let orphans ← removeOrphans managed
  let images ← cleanupGeneratedImages
  return ⟨active,managed,cleanupWarning .orphans orphans++cleanupWarning .generatedImages images⟩

end

end Cdenv.ComposeRebuild
