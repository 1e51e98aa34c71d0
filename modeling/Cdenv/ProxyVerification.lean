import Cdenv.ComposeLifecycle

/-!
# Live verification before a transport is attached

The proxy attaches a transport only to the recorded container of the active
generation, and first asks for all containers of that generation. For a Compose
generation the override puts the same labels on every service, so it asks for the
containers of the whole managed set.
-/
namespace Cdenv.ProxyVerification
open TextScan Fallible Identity PortPlanning ComposePlanning Inspection ComposeLifecycle List

inductive ActiveScenario where
  | image | dockerfile
  | compose (project : Text) (managedServices : List Text)
deriving DecidableEq

/-- The parts of the recorded generation that the proxy compares. -/
structure ActiveGeneration where
  containerId : ContainerId
  imageId : Text
  scenario : ActiveScenario

structure ProxyTarget where
  identity : DockerResourceIdentity
  active : ActiveGeneration

inductive ProxyRuntimeError where
  | missing | ambiguous | replaced | stopped | identityMismatch
  | docker (source : BollardAdapterError)
deriving DecidableEq

def expectedService (inspection : ContainerInspection) :
    ActiveScenario → Except ProxyRuntimeError (Option Text × Option Text)
  | .compose project managedServices => do
    let service ← orFail ((inspection.labels.get? composeServiceLabel).filter
      fun service => managedServices.contains service) .identityMismatch
    return (some project, some service)
  | _ => .ok (none, none)

/-- The one container of the generation, if it is the recorded one and runs. -/
def liveMatch (found : List DiscoveredContainer) (container : ContainerId) :
    Except ProxyRuntimeError Unit :=
  match found with
  | [] => .error .missing
  | [c] =>
    if c.id ≠ container then .error .replaced
    else if c.isRunning then .ok () else .error .stopped
  | _ => .error .ambiguous

/-- The target is the one live container of its generation. -/
def verifyLive (api : BollardApi) (target : ProxyTarget) : Except ProxyRuntimeError Unit := do
  let found ← (discover api (generationScope target.identity)).mapError .docker
  liveMatch found target.active.containerId
  let inspection ← (inspectContainer api target.active.containerId).mapError .docker
  let image ← orFail (ImageId.parse target.active.imageId) .identityMismatch
  let (project, service) ← expectedService inspection target.active.scenario
  (verifyContainer inspection {
    id := target.active.containerId
    name := inspection.name
    imageId := image
    identity := target.identity
    project
    service
    running := some true }).mapError .docker

def recordedTarget (request : CreateComposeRequest) (facts : ComposeLifecycleFacts) : ProxyTarget where
  identity := request.identity
  active := {
    containerId := facts.primary
    imageId := request.primaryImage.value
    scenario := .compose request.plan.projectName request.plan.managedServices }

/-- The engine reports for the generation exactly the containers of the accepted set, one
for each managed service, and all of them running. -/
def ReportsExactly (api : BollardApi) (identity : DockerResourceIdentity)
    (managed : OrderedMap Text ContainerId) : Prop :=
  ∃ found, discover api (generationScope identity) = .ok found ∧
    (found.map (·.id)).Perm managed.values ∧ ∀ c ∈ found, c.isRunning = true

variable {fs : List DiscoveredContainer}

theorem liveMatch_eq_ok {ctr : ContainerId} {r : Unit} : liveMatch fs ctr = .ok r ↔
      fs.map (·.id) = [ctr] ∧ ∀ c ∈ fs, c.isRunning = true := by
  match fs with
  | [] => simp [liveMatch]
  | [c] =>
    simp only [liveMatch]
    split_ifs with hid hr <;> simp_all
  | _::_::_ => simp [liveMatch]

variable {api : BollardApi}

/-- Behind the discovery nothing is checked that creation has not checked. -/
theorem verifyContainer_of_verified {ex : ComposePrimaryExpectation}
    {insp : ContainerInspection} (h : VerifiedPrimary api ex insp)
    (hr : ex.running = true) :
    verifyContainer insp {
      id := ex.id
      name := insp.name
      imageId := ex.imageId
      identity := ex.identity
      project := some ex.project
      service := some ex.service
      running := some true } = .ok () := by
  have hid : ex.id.value = insp.id.value := by rw [h.id]
  have hi : ex.imageId.value = insp.imageId.value := by rw [h.image]
  have hs : insp.running = true := h.running.trans hr
  simp only [verifyContainer,verifyOptionalLabel,bind_eq_ok,verifyValue_eq_ok,
    verifyIdentity_eq_ok,verifyLabel_eq_ok,boolText_inj]
  exact ⟨(),hid,(),trivial,(),hi,(),h.labelled,(),h.project,(),h.service,hs.symm⟩

/-- For a created set the discovery alone decides. -/
theorem verifyLive_iff_liveMatch {req : CreateComposeRequest} {fa : ComposeLifecycleFacts}
    (ha : Accepted api req fa)
    (hf : discover api (generationScope req.identity) = .ok fs) :
    verifyLive api (recordedTarget req fa) = .ok () ↔ liveMatch fs fa.primary = .ok () := by
  obtain ⟨insp,hv⟩ := ha.verified
  have hm : req.plan.primaryService ∈ req.plan.managedServices := by
    rw [← ha.services,OrderedMap.mem_keys]
    exact ⟨fa.primary,ha.primary⟩
  have hs : expectedService insp (recordedTarget req fa).active.scenario =
      .ok (some req.plan.projectName, some req.plan.primaryService) := by
    have hfi : (insp.labels.get? composeServiceLabel).filter
        (fun svc => req.plan.managedServices.contains svc) = some req.plan.primaryService := by
      rw [hv.service]
      simp [Option.filter,hm]
    simp only [expectedService,recordedTarget,bind_eq_ok,orFail_eq_ok,pure_eq_ok]
    exact ⟨_,hfi,rfl⟩
  have hc := verifyContainer_of_verified hv rfl
  simp only [verifyLive,bind_eq_ok,mapError_eq_ok,orFail_eq_ok]
  constructor
  · rintro ⟨fs',hf',⟨⟩,hl,-⟩
    cases hf.symm.trans hf'
    exact hl
  · intro hl
    exact ⟨fs,hf,(),hl,insp,hv.inspected,req.primaryImage,req.primaryImage.parse_value,_,hs,hc⟩

/-- An accepted service set is attachable exactly when it is a single service. -/
theorem verifyLive_created_iff {api : BollardApi} {cancellation : ℕ → Bool}
    {up : Except Text ComposeUpClaim} {request : CreateComposeRequest}
    {facts : ComposeLifecycleFacts}
    (hcreated : createOrRebuild api cancellation up request = .ok facts)
    (hreports : ReportsExactly api request.identity facts.managed) :
    verifyLive api (recordedTarget request facts) = .ok () ↔
      request.plan.managedServices.length = 1 := by
  have ha := createOrRebuild_accepted hcreated
  obtain ⟨fs,hf,hp,hr⟩ := hreports
  have hc : fs.length = request.plan.managedServices.length := by
    have hl := hp.length_eq
    rw [length_map] at hl
    rw [hl,← ha.services,OrderedMap.values,OrderedMap.keys,length_map, length_map]
  have hm : facts.primary ∈ fs.map (·.id) :=
    hp.mem_iff.mpr (OrderedMap.mem_values.mpr ⟨_,ha.primary⟩)
  rw [verifyLive_iff_liveMatch ha hf,liveMatch_eq_ok,← hc]
  constructor
  · rintro ⟨hid,-⟩
    simpa using congrArg length hid
  · intro ho
    obtain ⟨c,rfl⟩ := length_eq_one_iff.mp ho
    rw [map_singleton,mem_singleton] at hm
    exact ⟨by rw [map_singleton,hm],hr⟩

/-- The container of a service, as the engine of the samples reports it. -/
def sampleLabels (service : Text) : OrderedMap Text Text :=
  .ofList [(installationLabel, "inst"),(workspaceLabel, "main"),
    (generationLabel, "1"),(profileLabel, "v1"),
    (composeProjectLabel, "proj"),(composeServiceLabel, service)]

/-- An engine that runs one labelled container for every service. -/
def sampleApi (services : List (Text × ContainerId)) : BollardApi
  | .listContainers _ _ => some (.ok (.containers (services.map fun s =>
    ⟨some s.2.value,some [s.1],some ImageId.sample.value,some (sampleLabels s.1),some "running"⟩)))
  | .inspectContainer id =>
    (services.find? fun s => s.2.value == id).map fun s => .ok (.container {
      id := some id
      name := some ('/'::s.1)
      image := some ImageId.sample.value
      config := some ⟨some (sampleLabels s.1),some "dev",some "/work"⟩
      state := some ⟨some true⟩
      mounts := none
      portBindings := none })

def sampleServices : List (Text × ContainerId) :=
  [("app", .sample),("db", .other)]

def sampleRequest (services : List (Text × ContainerId)) : CreateComposeRequest where
  plan := ⟨"proj","app",["app"],services.map (·.1),[]⟩
  identity := .sample
  primaryImage := .sample
  ports := {}

def sampleClaim (services : List (Text × ContainerId)) : ComposeUpClaim :=
  ⟨.sample,.ofList services⟩

def sampleFacts (services : List (Text × ContainerId)) : ComposeLifecycleFacts :=
  ⟨.sample,.ofList services⟩

theorem reportsExactly_of_evaluation {ident : DockerResourceIdentity}
    {managed : OrderedMap Text ContainerId}
    (h : (discover api (generationScope ident)).toOption.any (fun fs =>
      decide ((fs.map (·.id)).Perm managed.values ∧ ∀ c ∈ fs, c.isRunning = true)) = true) :
    ReportsExactly api ident managed :=
  exists_ok_and h fun _ _ hc => hc

theorem verifyLive_created_single :
    let services := sampleServices.take 1
    createOrRebuild (sampleApi services) (fun _ => false) (.ok (sampleClaim services))
        (sampleRequest services) = .ok (sampleFacts services) ∧
      ReportsExactly (sampleApi services) DockerResourceIdentity.sample (sampleFacts services).managed ∧
      verifyLive (sampleApi services)
        (recordedTarget (sampleRequest services) (sampleFacts services)) = .ok () := by
  intro services
  have hc : createOrRebuild (sampleApi services) (fun _ => false) (.ok (sampleClaim services))
      (sampleRequest services) = .ok (sampleFacts services) := by decide +kernel
  have hr : ReportsExactly (sampleApi services) DockerResourceIdentity.sample
      (sampleFacts services).managed := reportsExactly_of_evaluation (by decide +kernel)
  exact ⟨hc,hr,(verifyLive_created_iff hc hr).mpr rfl⟩

/-- With a second service the same generation is refused. -/
theorem verifyLive_created_second_service :
    createOrRebuild (sampleApi sampleServices) (fun _ => false) (.ok (sampleClaim sampleServices))
        (sampleRequest sampleServices) = .ok (sampleFacts sampleServices) ∧
      ReportsExactly (sampleApi sampleServices) DockerResourceIdentity.sample
        (sampleFacts sampleServices).managed ∧
      verifyLive (sampleApi sampleServices)
        (recordedTarget (sampleRequest sampleServices) (sampleFacts sampleServices)) =
          .error .ambiguous :=
  ⟨by decide +kernel,reportsExactly_of_evaluation (by decide +kernel),by decide +kernel⟩

end Cdenv.ProxyVerification
