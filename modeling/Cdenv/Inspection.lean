import Cdenv.Identity
import Cdenv.PortPlanning
import Mathlib.Data.List.Sort

/-!
# Container discovery, inspection and verification

The read side of the Docker adapter. The daemon is the parameter `BollardApi`, the seam
that the source has for it: a request is answered, refused, or not answered in time. Its
records are as loose as the wire format; mapping them fails where a required field is
absent or an identity is malformed.
-/
namespace Cdenv.Inspection
open TextScan Fallible Identity PortPlanning

def isLowerHex (c : Char) : Bool := c.isDigit || ('a' ≤ c && c ≤ 'f')

/-- Exactly 64 lowercase hexadecimal characters. -/
def isDigest (value : Text) : Bool := value.length == 64 && value.all isLowerHex

@[ext] structure ContainerId where
  value : Text
  valid : isDigest value = true
deriving DecidableEq

def ContainerId.sample : ContainerId := ⟨List.replicate 64 'a',by decide⟩

def ContainerId.other : ContainerId := ⟨List.replicate 64 'b',by decide⟩

def ContainerId.parse (value : Text) : Option ContainerId :=
  if h : isDigest value = true then some ⟨value,h⟩ else none

def isImageId (value : Text) : Bool := (stripPrefix "sha256:" value).any isDigest

@[ext] structure ImageId where
  value : Text
  valid : isImageId value = true
deriving DecidableEq

def ImageId.sample : ImageId := ⟨"sha256:"++List.replicate 64 'c',by decide⟩

def ImageId.parse (value : Text) : Option ImageId :=
  if h : isImageId value = true then some ⟨value,h⟩ else none

theorem ImageId.parse_value (id : ImageId) : ImageId.parse id.value = some id := dif_pos id.valid

structure ContainerSummary where
  id : Option Text
  names : Option (List Text)
  imageId : Option Text
  labels : Option (OrderedMap Text Text)
  state : Option Text

structure MountPoint where
  (typ name source destination mode : Option Text)

structure PortBinding where
  (hostIp hostPort : Option Text)

structure ContainerConfig where
  labels : Option (OrderedMap Text Text)
  (user workingDir : Option Text)

structure ContainerState where
  running : Option Bool

/-- The host configuration is there as far as its port bindings are, which come in any
order. -/
structure ContainerInspectResponse where
  (id name image : Option Text)
  config : Option ContainerConfig
  state : Option ContainerState
  mounts : Option (List MountPoint)
  portBindings : Option (List (Text × Option (List PortBinding)))

inductive BollardApiRequest where
  | listContainers (all : Bool) (filters : OrderedMap Text (List Text))
  | inspectContainer (id : Text)

inductive BollardApiResponse where
  | containers (summaries : List ContainerSummary)
  | container (response : ContainerInspectResponse)
  | unit

structure BollardApiError where
  message : Text
deriving DecidableEq

/-- Nothing stands for an answer that does not come in time. -/
abbrev BollardApi := BollardApiRequest → Option (Except BollardApiError BollardApiResponse)

structure InspectedMount where
  kind : Text
  source : Option Text
  target : Text
  mode : Option Text

structure InspectedPortBinding where
  container : Text
  (hostIp hostPort : Option Text)
deriving DecidableEq

structure DiscoveredContainer where
  id : ContainerId
  names : List Text
  imageId : Option ImageId
  labels : OrderedMap Text Text
  state : Option Text

def DiscoveredContainer.isRunning (c : DiscoveredContainer) : Bool :=
  c.state == some "running".toList

structure ContainerInspection where
  id : ContainerId
  name : Text
  imageId : ImageId
  labels : OrderedMap Text Text
  (user workingDirectory : Text)
  mounts : List InspectedMount
  ports : List InspectedPortBinding
  running : Bool

inductive BollardAdapterError where
  | timedOut (operation : String)
  | api (operation : String) (source : BollardApiError)
  | unexpectedResponse (operation : String)
  | missingField (resource field : String)
  | invalidContainerId (value : Text)
  | invalidImageId (resource : String) (value : Text)
  | verificationMismatch (field : Text) (expected : Text) (actual : Option Text)
  | portBindingMismatch (expected : List Text) (actual : List InspectedPortBinding)
  | ambiguousComposePrimary (project service : Text) (found : ℕ)
deriving DecidableEq

def installationLabel : Text := "cdenv.installation"
def workspaceLabel : Text := "cdenv.workspace"
def generationLabel : Text := "cdenv.generation"
def profileLabel : Text := "cdenv.profile"
def composeProjectLabel : Text := "com.docker.compose.project"
def composeServiceLabel : Text := "com.docker.compose.service"

/-- One absent field, with the names that its error carries. -/
def required {A : Type} (value : Option A) (resource field : String) :
    Except BollardAdapterError A :=
  orFail value (.missingField resource field)

def parseContainerId (value : Text) : Except BollardAdapterError ContainerId :=
  orFail (ContainerId.parse value) (.invalidContainerId value)

def parseImageId (value : Text) (resource : String) : Except BollardAdapterError ImageId :=
  orFail (ImageId.parse value) (.invalidImageId resource value)

def mapSummary (summary : ContainerSummary) : Except BollardAdapterError DiscoveredContainer := do
  let id ← required summary.id "container list" "Id"
  let id ← parseContainerId id
  let imageId ← summary.imageId.mapM fun value => parseImageId value "container list"
  return {
    id
    names := (summary.names.getD []).map fun name => name.dropWhile (· == '/')
    imageId
    labels := summary.labels.getD .empty
    state := summary.state }

def mapMount (mount : MountPoint) : Except BollardAdapterError InspectedMount := do
  let kind ← required mount.typ "container inspect mount" "Type"
  let target ← required mount.destination "container inspect mount" "Destination"
  return ⟨kind,if kind = "volume" then mount.name else mount.source,target,mount.mode⟩

/-- Records are compared field by field, and an absent field comes first. -/
def InspectedMount.key (m : InspectedMount) : List (List Text) :=
  [[m.kind],m.source.toList,[m.target],m.mode.toList]

def InspectedPortBinding.key (b : InspectedPortBinding) : List (List Text) :=
  [[b.container],b.hostIp.toList,b.hostPort.toList]

def inspectedPorts (bindings : List (Text × Option (List PortBinding))) :
    List InspectedPortBinding :=
  bindings.flatMap fun entry =>
    (entry.2.getD []).map fun binding => ⟨entry.1,binding.hostIp,binding.hostPort⟩

/-- The parts of an inspection that are read, each required or defaulted. -/
def mapContainer (container : ContainerInspectResponse) :
    Except BollardAdapterError ContainerInspection := do
  let id ← required container.id "container inspect" "Id"
  let id ← parseContainerId id
  let config ← required container.config "container inspect" "Config"
  let state ← required container.state "container inspect" "State"
  let mounts ← (container.mounts.getD []).mapM mapMount
  let name ← required container.name "container inspect" "Name"
  let image ← required container.image "container inspect" "Image"
  let imageId ← parseImageId image "container inspect"
  return {
    id
    name := name.dropWhile (· == '/')
    imageId
    labels := config.labels.getD .empty
    user := config.user.getD []
    workingDirectory := config.workingDir.getD []
    mounts := mounts.insertionSort fun a b => a.key ≤ b.key
    ports := (inspectedPorts (container.portBindings.getD [])).insertionSort
      fun a b => a.key ≤ b.key
    running := state.running.getD false }

structure ContainerDiscoveryScope where
  installation : IdentityToken
  workspace : Option WorkspaceName
  generation : Option GenerationId

def labelFilter (key value : Text) : Text := key++ '='::value

def ContainerDiscoveryScope.filters (scope : ContainerDiscoveryScope) :
    OrderedMap Text (List Text) :=
  .ofList [("label", labelFilter installationLabel scope.installation.value ::
    (scope.workspace.toList.map fun w => labelFilter workspaceLabel w.value) ++
    (scope.generation.toList.map fun g => labelFilter generationLabel (decimal g.value)))]

section
variable (api : BollardApi)

def call (operation : String) (request : BollardApiRequest) :
    Except BollardAdapterError BollardApiResponse :=
  match api request with
  | none => .error (.timedOut operation)
  | some (.error source) => .error (.api operation source)
  | some (.ok response) => .ok response

def discover (scope : ContainerDiscoveryScope) :
    Except BollardAdapterError (List DiscoveredContainer) := do
  let response ← call api "list containers" (.listContainers true scope.filters)
  match response with
  | .containers summaries => summaries.mapM mapSummary
  | _ => .error (.unexpectedResponse "list containers")

def inspectContainer (id : ContainerId) : Except BollardAdapterError ContainerInspection := do
  let response ← call api "inspect container" (.inspectContainer id.value)
  match response with
  | .container container => mapContainer container
  | _ => .error (.unexpectedResponse "inspect container")

end

def verifyValue (field : String) (expected actual : Text) : Except BollardAdapterError Unit :=
  require (expected == actual) (.verificationMismatch field.toList expected (some actual))

def verifyLabel (labels : OrderedMap Text Text) (key expected : Text) :
    Except BollardAdapterError Unit :=
  require (labels.get? key == some expected)
    (.verificationMismatch key expected (labels.get? key))

def verifyOptionalLabel (labels : OrderedMap Text Text) (key : Text) :
    Option Text → Except BollardAdapterError Unit
  | some expected => verifyLabel labels key expected
  | none => require (!labels.contains key)
      (.verificationMismatch key "<absent>" (labels.get? key))

variable {r : Unit}

@[simp] theorem verifyValue_eq_ok {f : String} {ex actual : Text} :
    verifyValue f ex actual = .ok r ↔ ex = actual := by
  simp [verifyValue]

variable {labels : OrderedMap Text Text} {inspection : ContainerInspection}

@[simp] theorem verifyLabel_eq_ok {key expected : Text} :
    verifyLabel labels key expected = .ok r ↔ labels.get? key = some expected := by
  simp [verifyLabel]

def boolText (b : Bool) : Text := if b then "true" else "false"

structure ContainerExpectation where
  id : ContainerId
  name : Text
  imageId : ImageId
  identity : DockerResourceIdentity
  (project service : Option Text)
  running : Option Bool

def verifyIdentity (labels : OrderedMap Text Text) (identity : DockerResourceIdentity) :
    Except BollardAdapterError Unit := do
  verifyLabel labels installationLabel identity.installation.value
  verifyLabel labels workspaceLabel identity.workspace.value
  verifyLabel labels generationLabel (decimal identity.generation.value)
  verifyLabel labels profileLabel identity.profile.value

structure Labelled (labels : OrderedMap Text Text) (identity : DockerResourceIdentity) : Prop where
  installation : labels.get? installationLabel = some identity.installation.value
  workspace : labels.get? workspaceLabel = some identity.workspace.value
  generation : labels.get? generationLabel = some (decimal identity.generation.value)
  profile : labels.get? profileLabel = some identity.profile.value

@[simp] theorem verifyIdentity_eq_ok {identity : DockerResourceIdentity} :
    verifyIdentity labels identity = .ok r ↔ Labelled labels identity := by
  simp only [verifyIdentity,bind_eq_ok,verifyLabel_eq_ok]
  constructor
  · rintro ⟨-,h₁,-,h₂,-,h₃,h₄⟩
    exact ⟨h₁,h₂,h₃,h₄⟩
  · rintro ⟨h₁,h₂,h₃,h₄⟩
    exact ⟨(),h₁,(),h₂,(),h₃,h₄⟩

theorem boolText_inj {a b : Bool} : boolText a = boolText b ↔ a = b := by
  cases a <;> cases b <;> decide

/-- The first difference is reported. -/
def verifyContainer (inspection : ContainerInspection) (expected : ContainerExpectation) :
    Except BollardAdapterError Unit := do
  verifyValue "container ID" expected.id.value inspection.id.value
  verifyValue "container name" expected.name inspection.name
  verifyValue "image ID" expected.imageId.value inspection.imageId.value
  verifyIdentity inspection.labels expected.identity
  verifyOptionalLabel inspection.labels composeProjectLabel expected.project
  verifyOptionalLabel inspection.labels composeServiceLabel expected.service
  match expected.running with
  | some running => verifyValue "running state" (boolText running) (boolText inspection.running)
  | none => .ok ()

structure Verified (inspection : ContainerInspection) (expected : ContainerExpectation) : Prop where
  id : inspection.id = expected.id
  name : inspection.name = expected.name
  image : inspection.imageId = expected.imageId
  labelled : Labelled inspection.labels expected.identity
  project : verifyOptionalLabel inspection.labels composeProjectLabel expected.project = .ok ()
  service : verifyOptionalLabel inspection.labels composeServiceLabel expected.service = .ok ()
  running : ∀ running, expected.running = some running → inspection.running = running

theorem verifyContainer_eq_ok {expected : ContainerExpectation} :
    verifyContainer inspection expected = .ok r ↔ Verified inspection expected := by
  simp only [verifyContainer,bind_eq_ok,verifyValue_eq_ok,verifyIdentity_eq_ok]
  constructor
  · rintro ⟨⟨⟩,hid,⟨⟩,hn,⟨⟩,hi,⟨⟩,hl,⟨⟩,hp,⟨⟩,hs,hr⟩
    refine ⟨ContainerId.ext hid.symm,hn.symm,ImageId.ext hi.symm,hl,hp,hs,?_⟩
    intro run he
    rw [he] at hr
    exact (boolText_inj.mp (verifyValue_eq_ok.mp hr)).symm
  · rintro ⟨hid,hn,hi,hl,hp,hs,hr⟩
    refine ⟨(),congrArg _ hid.symm,(),hn.symm,(),congrArg _ hi.symm,(),hl,(),hp,(),hs,?_⟩
    cases he : expected.running with
    | none => rfl
    | some run => exact verifyValue_eq_ok.mpr (congrArg _ (hr run he).symm)

structure ComposePrimaryExpectation where
  id : ContainerId
  imageId : ImageId
  identity : DockerResourceIdentity
  (project service : Text)
  running : Bool

def generationScope (identity : DockerResourceIdentity) : ContainerDiscoveryScope :=
  ⟨identity.installation,some identity.workspace,some identity.generation⟩

def isServiceOf (project service : Text) (c : DiscoveredContainer) : Bool :=
  c.labels.get? composeProjectLabel == some project &&
    c.labels.get? composeServiceLabel == some service

def verifyComposePrimary (api : BollardApi) (expected : ComposePrimaryExpectation) :
    Except BollardAdapterError ContainerInspection := do
  let inspection ← inspectContainer api expected.id
  verifyValue "container ID" expected.id.value inspection.id.value
  verifyValue "image ID" expected.imageId.value inspection.imageId.value
  verifyIdentity inspection.labels expected.identity
  verifyLabel inspection.labels composeProjectLabel expected.project
  verifyLabel inspection.labels composeServiceLabel expected.service
  verifyValue "running state" (boolText expected.running) (boolText inspection.running)
  let discovered ← discover api (generationScope expected.identity)
  let found := discovered.filter (isServiceOf expected.project expected.service)
  require (found.map (·.id) == [expected.id])
    (.ambiguousComposePrimary expected.project expected.service found.length)
  return inspection

/-- What acceptance of a primary says about the inspection and the discovery. -/
structure VerifiedPrimary (api : BollardApi) (expected : ComposePrimaryExpectation)
    (inspection : ContainerInspection) : Prop where
  inspected : inspectContainer api expected.id = .ok inspection
  id : inspection.id = expected.id
  image : inspection.imageId = expected.imageId
  labelled : Labelled inspection.labels expected.identity
  project : inspection.labels.get? composeProjectLabel = some expected.project
  service : inspection.labels.get? composeServiceLabel = some expected.service
  running : inspection.running = expected.running
  unique : ∃ discovered, discover api (generationScope expected.identity) = .ok discovered ∧
    (discovered.filter (isServiceOf expected.project expected.service)).map (·.id) = [expected.id]

theorem verifyComposePrimary_eq_ok {api : BollardApi} {ex : ComposePrimaryExpectation}
    (h : verifyComposePrimary api ex = .ok inspection) :
    VerifiedPrimary api ex inspection := by
  simp only [verifyComposePrimary,bind_eq_ok,verifyValue_eq_ok,verifyIdentity_eq_ok,
    verifyLabel_eq_ok,require_eq_ok,pure_eq_ok,boolText_inj,beq_iff_eq] at h
  obtain ⟨fs,hin,-,hid,-,hi,-,hl,-,hp,-,hs,-,hr,disc,hd,-,hu,rfl⟩ := h
  exact ⟨hin,(ContainerId.ext hid).symm,(ImageId.ext hi).symm,hl,hp,hs,hr.symm,disc,hd,hu⟩

def protocolText : PublicationProtocol → Text
  | .tcp => "tcp"
  | .udp => "udp"
  | .sctp => "sctp"

def bindingIpMatches (actual : Option Text) : PublicationBinding → Bool
  | .loopback address | .nonLoopback address => actual == some address.render
  | .allInterfaces => [none,some [],some "0.0.0.0",some "::"].contains actual

/-- The binding of one container port. A port that Docker was to choose is any number. -/
def portBound (actual : List InspectedPortBinding) (publication : PublicationRequest) (port : ℕ) :
    Bool :=
  actual.any fun binding =>
    binding.container == decimal port++ '/'::protocolText publication.protocol &&
      bindingIpMatches binding.hostIp publication.binding &&
      match publication.hostPorts with
      | none => binding.hostPort.any fun value => (parseU16 value).any (0 < ·)
      | some range => binding.hostPort ==
          some (decimal (range.first.value+(port - publication.containerPorts.first.value)))

def rangePorts (range : PortRange) : List ℕ :=
  List.range' range.first.value (range.last.value+1 - range.first.value)

def portBindingsMatch (actual : List InspectedPortBinding) (expected : PortPlan) : Bool :=
  expected.publications.all fun publication =>
    (rangePorts publication.containerPorts).all (portBound actual publication)

def verifyPortBindings (inspection : ContainerInspection) (expected : PortPlan) :
    Except BollardAdapterError Unit :=
  require (portBindingsMatch inspection.ports expected)
    (.portBindingMismatch (expected.publications.map (·.argument)) inspection.ports)

end Cdenv.Inspection
