import Cdenv.ComposePlanning
import Cdenv.Inspection

/-!
# Creation of a service set

After Docker Compose has reconciled the project, the claim it returns is checked against the
plan and every claimed container is inspected.
-/
namespace Cdenv.ComposeLifecycle
open TextScan Fallible Identity PortPlanning ComposePlanning Inspection

structure ComposeUpClaim where
  primary : ContainerId
  managed : OrderedMap Text ContainerId

structure ComposeLifecycleFacts where
  primary : ContainerId
  managed : OrderedMap Text ContainerId
deriving DecidableEq

structure CreateComposeRequest where
  plan : ComposePlan
  identity : DockerResourceIdentity
  primaryImage : ImageId
  ports : PortPlan

inductive ComposeLifecycleError where
  | cancelled (completed : List Text)
  | compose (operation : String) (source : Text)
  | docker (operation : String) (source : BollardAdapterError)
  | claimSetMismatch
  | serviceMismatch (service : Text) (field : String)
deriving DecidableEq

/-- Different service names, the primary among them; resumption and rebuild both check this. -/
def isManagedSet (services : List Text) (primary : Text) : Bool :=
  !(services.isEmpty || (OrderedSet.extend .empty services).size != services.length ||
    !services.any (· == primary) ||
    services.any fun service =>
      service.isEmpty || service.head? == some '-' || service.any isControl)

def checkCancelled (cancelled : Bool) (completed : List Text) : Except ComposeLifecycleError Unit :=
  require (!cancelled) (.cancelled completed)

/-- Field, found text and expected text. An absent label counts as empty. -/
def serviceChecks (inspection : ContainerInspection) (id : ContainerId) (service project : Text)
    (identity : DockerResourceIdentity) : List (String × Text × Text) :=
  let label key := (inspection.labels.get? key).getD []
  [("container ID", inspection.id.value, id.value),
    ("installation label", label installationLabel, identity.installation.value),
    ("workspace label", label workspaceLabel, identity.workspace.value),
    ("generation label", label generationLabel, decimal identity.generation.value),
    ("profile label", label profileLabel, identity.profile.value),
    ("Compose project label", label composeProjectLabel, project),
    ("Compose service label", label composeServiceLabel, service)]

def verifyService (inspection : ContainerInspection) (id : ContainerId) (service project : Text)
    (identity : DockerResourceIdentity) (running : Option Bool) :
    Except ComposeLifecycleError Unit := do
  (serviceChecks inspection id service project identity).forM fun check =>
    require (check.2.1 == check.2.2) (.serviceMismatch service check.1)
  require (!running.any (inspection.running != ·)) (.serviceMismatch service "running state")

section
variable (api : BollardApi) (cancellation : ℕ → Bool)

def verifyManaged (request : CreateComposeRequest) (entry : (Text × ContainerId) × ℕ) :
    Except ComposeLifecycleError Unit := do
  checkCancelled (cancellation (entry.2+2)) []
  let inspection ← (inspectContainer api entry.1.2).mapError
    (.docker "inspect managed Compose service")
  verifyService inspection entry.1.2 entry.1.1 request.plan.projectName request.identity (some true)

/-- Checks the claim, then each claimed container. -/
def createOrRebuild (up : Except Text ComposeUpClaim) (request : CreateComposeRequest) :
    Except ComposeLifecycleError ComposeLifecycleFacts := do
  checkCancelled (cancellation 0) []
  let claim ← up.mapError (.compose "reconciliation")
  let claimedPrimary ← orFail (claim.managed.get? request.plan.primaryService) .claimSetMismatch
  require (claim.managed.keys == request.plan.managedServices && claim.primary == claimedPrimary)
    .claimSetMismatch
  checkCancelled (cancellation 1) []
  let inspection ← (verifyComposePrimary api {
    id := claim.primary
    imageId := request.primaryImage
    identity := request.identity
    project := request.plan.projectName
    service := request.plan.primaryService
    running := true }).mapError (.docker "verify Compose primary")
  (verifyPortBindings inspection request.ports).mapError
    (.docker "verify Compose primary port bindings")
  claim.managed.entries.zipIdx.forM (verifyManaged api cancellation request)
  return ⟨claim.primary,claim.managed⟩

end

/-- The accepted claim: the planned services, and a verified primary among them. -/
structure Accepted (api : BollardApi) (request : CreateComposeRequest)
    (facts : ComposeLifecycleFacts) : Prop where
  services : facts.managed.keys = request.plan.managedServices
  primary : facts.managed.get? request.plan.primaryService = some facts.primary
  verified : ∃ inspection, VerifiedPrimary api {
    id := facts.primary
    imageId := request.primaryImage
    identity := request.identity
    project := request.plan.projectName
    service := request.plan.primaryService
    running := true } inspection

theorem createOrRebuild_accepted {api : BollardApi} {cancellation : ℕ → Bool}
    {up : Except Text ComposeUpClaim} {req : CreateComposeRequest}
    {facts : ComposeLifecycleFacts} (h : createOrRebuild api cancellation up req = .ok facts) :
    Accepted api req facts := by
  simp only [createOrRebuild,bind_eq_ok,mapError_eq_ok,orFail_eq_ok,require_eq_ok,pure_eq_ok,
    Bool.and_eq_true,beq_iff_eq] at h
  obtain ⟨-,-,cl,-,claimed,hc,-,⟨hk,hp⟩,-,-,insp,hv,-,-,-,-,rfl⟩ := h
  exact ⟨hk,hp ▸ hc,insp,verifyComposePrimary_eq_ok hv⟩

end Cdenv.ComposeLifecycle
