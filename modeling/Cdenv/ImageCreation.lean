import Cdenv.ImageRebuild

/-!
# Image containers

One container is created from a pulled, built or prepared image, inspected, started and inspected
again. A failure hands the owned resources to the cleanup, which removes nothing that it has not
inspected just before.

The evaluation of the host requirements is pure and comes in as its result.
-/
namespace Cdenv.ImageCreation
open TextScan Fallible ContainerPath Identity RuntimePlanning DockerOptions DockerCommand
open PortPlanning Inspection WorkspaceRecord Interaction Program
open ImageRebuild (PreparedImage)

structure ImageInspection where
  id : ImageId
  labels : OrderedMap Text Text
  architecture : ContainerArchitecture

/-- The adapter's errors, and the refusal to remove a running container. -/
inductive CleanupError where
  | adapter (source : BollardAdapterError)
  | cleanupRunningContainer (id : ContainerId)

inductive ImageContainerMatchState where
  | missing | staleOnly | recordedStopped | recordedRunning | externalReplacement | ambiguousCurrent
deriving DecidableEq

inductive ImageCleanupFailure where
  | container (source : CleanupError)
  | image (source : CleanupError)

inductive ImageContainerError where
  | hostRequirement (source : Text)
  | composeUnsupported | missingBuildTag | cancelled
  | unsafeContainerState (state : ImageContainerMatchState)
  | dockerCli (operation : String) (source : Text)
  | bollard (operation : String) (source : BollardAdapterError)
  | imageMismatch (field : Text)
  | runtime (source : RuntimeVerification.ImageContainerError)
  | cleanupFailed (primary : ImageContainerError) (failures : List ImageCleanupFailure)

structure ImageContainerCreateRequest where
  build : BuildPlan
  checkout : Text
  buildTag : Option Text
  containerName : Text
  identity : DockerResourceIdentity
  runtime : RuntimePlan
  runArguments : List Text
  ports : PortPlan
  command : List Text
  noCache : Bool
  cdenvOwnedTargets : List ContainerPath
  recordedContainer : Option ContainerId

structure HostRequirementEvaluation where
  gpuAccess : GpuAccessIntent
  warnings : List Text

structure ImageContainerFacts where
  container : ContainerId
  image : ImageId
  architecture : ContainerArchitecture
  generation : GenerationId
  running : Bool
  hostWarnings : List Text

/-- What Docker has handed over on the way. -/
structure OwnedResources where
  container : Option ContainerId := none
  containerImage : Option ImageId := none
  generatedImage : Option ImageId := none

structure ImageBuildRequest where
  plan : DockerfileBuildPlan
  (checkout tag : Text)
  identity : DockerResourceIdentity
  noCache : Bool

/-- The Docker client, the engine and the cancellation token are the outside. Removal of a
container or an image is one call; the inspection in front of it is part of the program. -/
inductive DockerCall where
  | isCancelled
  | discover (installation : IdentityToken) (workspace : WorkspaceName)
  | inspectContainer (id : ContainerId)
  | inspectImage (reference : Text)
  | pull (image checkout : Text)
  | build (request : ImageBuildRequest)
  | create (request : DockerCreateRequest) (checkout : Text)
  | start (id : ContainerId)
  | stop (id : ContainerId) (seconds : ℕ)
  | removeContainer (id : ContainerId)
  | removeImage (id : ImageId)

/-- The error of the Docker client is only passed on. -/
abbrev DockerAnswer : DockerCall → Type
  | .isCancelled => Bool
  | .discover _ _ => Except BollardAdapterError (List DiscoveredContainer)
  | .inspectContainer _ => Except BollardAdapterError ContainerInspection
  | .inspectImage _ => Except BollardAdapterError ImageInspection
  | .pull _ _ => Except Text Unit
  | .build _ => Except Text ImageId
  | .create _ _ => Except Text ContainerId
  | .start _ | .stop _ _ | .removeContainer _ | .removeImage _ => Except BollardAdapterError Unit

abbrev Docker := Program DockerAnswer ImageContainerError

def ofExcept {ε α : Type} : Except ε α → Program DockerAnswer ε α
  | .ok a => pure a
  | .error e => fail e

def checkCancellation : Docker Unit := do
  if ← (call DockerCall.isCancelled : Docker Bool) then fail .cancelled

def inspectImage (operation : String) (reference : Text) : Docker ImageInspection :=
  expect (call (DockerCall.inspectImage reference)) fun source => .bollard operation source

structure CorrelatedContainers where
  (current stale : List DiscoveredContainer)

/-- The containers of the workspace, by whether they have the expected generation. -/
def correlateContainers (containers : List DiscoveredContainer) (workspace : WorkspaceName)
    (generation : GenerationId) : CorrelatedContainers :=
  let own := containers.filter fun c => c.labels.get? workspaceLabel == some workspace.value
  let isCurrent (c : DiscoveredContainer) : Bool :=
    c.labels.get? generationLabel == some (decimal generation.value)
  ⟨own.filter isCurrent,own.filter fun c => !isCurrent c⟩

def classifyImageContainerMatches (found : CorrelatedContainers) (recorded : Option ContainerId) :
    ImageContainerMatchState :=
  match found.current with
  | [] => if found.stale.isEmpty then .missing else .staleOnly
  | [current] =>
    if recorded = some current.id then
      if current.isRunning then .recordedRunning else .recordedStopped
    else .externalReplacement
  | _ => .ambiguousCurrent

def generatedImageLabel : Text := "cdenv.generated"

def verifyBuiltImage (image : ImageInspection) (claim : ImageId)
    (identity : DockerResourceIdentity) : Except ImageContainerError Unit := do
  require (image.id == claim) (.imageMismatch "image ID")
  (identity.labelEntries++[(generatedImageLabel, "true".toList)]).forM fun entry =>
    require (image.labels.get? entry.1 == some entry.2) (.imageMismatch entry.1)

section
variable (request : ImageContainerCreateRequest)

def expectation (container : ContainerId) (image : ImageId) (running : Option Bool) :
    ContainerExpectation where
  id := container
  name := request.containerName
  imageId := image
  identity := request.identity
  project := none
  service := none
  running := running

def inspectAndVerify (container : ContainerId) (image : ImageId) (running : Bool) :
    Docker ContainerInspection := do
  let inspection ← expect (call (DockerCall.inspectContainer container))
    fun source => .bollard "inspect container" source
  let expected := expectation request container image (some running)
  ofExcept ((verifyContainer inspection expected).mapError (.bollard "verify container identity"))
  ofExcept ((RuntimeVerification.verifyRuntime inspection request.runtime request.ports).mapError
    .runtime)
  return inspection

def cleanupContainer (expected : ContainerExpectation) :
    Program DockerAnswer CleanupError Unit := do
  let inspection ← expect (call (DockerCall.inspectContainer expected.id)) .adapter
  ofExcept ((verifyContainer inspection expected).mapError .adapter)
  if inspection.running then fail (.cleanupRunningContainer inspection.id)
  else expect (call (DockerCall.removeContainer inspection.id)) .adapter

def cleanupImage (id : ImageId) (identity : DockerResourceIdentity) :
    Program DockerAnswer CleanupError Unit := do
  let inspection ← expect (call (DockerCall.inspectImage id.value)) .adapter
  ofExcept ((verifyValue "image ID" id.value inspection.id.value).mapError .adapter)
  ofExcept ((verifyIdentity inspection.labels identity).mapError .adapter)
  ofExcept ((verifyLabel inspection.labels generatedImageLabel "true").mapError .adapter)
  expect (call (DockerCall.removeImage inspection.id)) .adapter

def containerFailure : Except CleanupError Unit → List ImageCleanupFailure
  | .ok _ => []
  | .error source => [.container source]

def imageFailure : Except CleanupError Unit → List ImageCleanupFailure
  | .ok _ => []
  | .error source => [.image source]

def stopRunning (container : ContainerId) (running : Bool) :
    Docker (Except BollardAdapterError Unit) :=
  if running then call (DockerCall.stop container 5) else pure (.ok ())

/-- A running container is stopped first, and its removal is tried even if that fails. -/
def cleanupCandidate (container : ContainerId) (image : ImageId) :
    Docker (List ImageCleanupFailure) := do
  match ← (call (DockerCall.inspectContainer container) :
      Docker (Except BollardAdapterError ContainerInspection)) with
  | .error source => return [.container (.adapter source)]
  | .ok inspection =>
    match verifyContainer inspection (expectation request container image none) with
    | .error source => return [.container (.adapter source)]
    | .ok _ =>
      let stopped ← stopRunning container inspection.running
      let removed ← attempt (cleanupContainer (expectation request container image none))
      return containerFailure (stopped.mapError .adapter)++containerFailure removed

def cleanupOwnedContainer (owned : OwnedResources) : Docker (List ImageCleanupFailure) :=
  match owned.container, owned.containerImage with
  | some container, some image => cleanupCandidate request container image
  | _, _ => pure []

def cleanupOwnedImage (owned : OwnedResources) : Docker (List ImageCleanupFailure) :=
  match owned.generatedImage with
  | some image => do return imageFailure (← attempt (cleanupImage image request.identity))
  | none => pure []

def cleanup (owned : OwnedResources) : Docker (List ImageCleanupFailure) := do
  let containers ← cleanupOwnedContainer request owned
  let images ← cleanupOwnedImage request owned
  return containers++images

/-- A program that fails with what is owned at that moment. -/
abbrev Owning := Program DockerAnswer (OwnedResources × ImageContainerError)

def holding {α : Type} (owned : OwnedResources) (m : Docker α) : Owning α :=
  expect (attempt m) (owned, ·)

/-- The failure of the creation, or the failures of the cleanup with it. -/
def cleaningUp (m : Owning ImageContainerFacts) : Docker ImageContainerFacts := do
  match ← attempt m with
  | .ok facts => return facts
  | .error (owned, primary) =>
    let failures ← cleanup request owned
    if failures.isEmpty then fail primary else fail (.cleanupFailed primary failures)

def discoverUnused : Docker Unit := do
  checkCancellation
  let containers ← expect
    (call (DockerCall.discover request.identity.installation request.identity.workspace))
    fun source => .bollard "discovery" source
  let correlated := correlateContainers containers request.identity.workspace
    request.identity.generation
  let state := classifyImageContainerMatches correlated request.recordedContainer
  if state = .missing ∨ state = .staleOnly then pure () else fail (.unsafeContainerState state)

def createRequest (host : HostRequirementEvaluation) (image : ImageId) : DockerCreateRequest where
  name := request.containerName
  image := image.value
  identity := request.identity
  runtime := request.runtime
  runArguments := request.runArguments
  ports := request.ports
  gpuAccess := host.gpuAccess
  command := request.command
  cdenvOwnedTargets := request.cdenvOwnedTargets

/-- From the created container to its facts. The image of the inspected container is
inspected too, and the caller says what it must be. -/
def startCandidate (host : HostRequirementEvaluation) (container : ContainerId) (image : ImageId)
    (accept : ContainerInspection → ImageInspection →
      Except ImageContainerError ContainerArchitecture) : Docker ImageContainerFacts := do
  checkCancellation
  let created ← inspectAndVerify request container image false
  let containerImage ← inspectImage "inspect container image" created.imageId.value
  let architecture ← ofExcept (accept created containerImage)
  checkCancellation
  expect (call (DockerCall.start container)) fun source => .bollard "start candidate" source
  checkCancellation
  let running ← inspectAndVerify request container image true
  return {
    container := running.id
    image
    architecture
    generation := request.identity.generation
    running := true
    hostWarnings := host.warnings }

def createCandidate (host : HostRequirementEvaluation) (owned : OwnedResources) (image : ImageId)
    (accept : ContainerInspection → ImageInspection →
      Except ImageContainerError ContainerArchitecture) : Owning ImageContainerFacts := do
  let owned := { owned with containerImage := some image }
  holding owned checkCancellation
  let container ← holding owned (expect
    (call (DockerCall.create (createRequest request host image) request.checkout))
    fun source => .dockerCli "create" source)
  holding { owned with container := some container }
    (startCandidate request host container image accept)

/-- The image to create from, with what was generated for it. -/
def obtainImage : Owning (ImageInspection × OwnedResources) := do
  match request.build with
  | .image image =>
    let inspection ← holding {} (do
      expect (call (DockerCall.pull image request.checkout))
        fun source => .dockerCli "pull" source
      checkCancellation
      inspectImage "inspect pulled image" image)
    return (inspection, {})
  | .dockerfile plan =>
    match request.buildTag with
    | none => fail ({}, .missingBuildTag)
    | some tag =>
      let build : ImageBuildRequest :=
        ⟨plan,request.checkout,tag,request.identity,request.noCache⟩
      let claim ← holding {} (expect (call (DockerCall.build build))
        fun source => .dockerCli "build" source)
      let owned : OwnedResources := { generatedImage := some claim }
      let inspection ← holding owned (do
        checkCancellation
        let image ← inspectImage "inspect built image" claim.value
        ofExcept (verifyBuiltImage image claim request.identity)
        return image)
      return (inspection, owned)
  | .compose => fail ({}, .composeUnsupported)

def createAfterDiscovery (host : HostRequirementEvaluation) : Owning ImageContainerFacts := do
  let (image, owned) ← obtainImage request
  createCandidate request host owned image.id fun created containerImage => do
    require (containerImage.id == created.imageId) (.imageMismatch "image ID")
    return containerImage.architecture

def create (host : Except Text HostRequirementEvaluation) : Docker ImageContainerFacts := do
  let host ← ofExcept (host.mapError .hostRequirement)
  discoverUnused request
  cleaningUp request (createAfterDiscovery request host)

def isPrepared (prepared : PreparedImage) (image : ImageInspection) :
    Except ImageContainerError ContainerArchitecture := do
  require (image.id == prepared.image && image.architecture == prepared.architecture)
    (.imageMismatch "prepared image identity")
  return prepared.architecture

def createPrepared (prepared : PreparedImage) (host : Except Text HostRequirementEvaluation) :
    Docker ImageContainerFacts := do
  let host ← ofExcept (host.mapError .hostRequirement)
  discoverUnused request
  let inspected ← inspectImage "inspect prepared image" prepared.image.value
  let _ ← ofExcept (isPrepared prepared inspected)
  cleaningUp request (createCandidate request host {} prepared.image fun _ => isPrepared prepared)

end

end Cdenv.ImageCreation
