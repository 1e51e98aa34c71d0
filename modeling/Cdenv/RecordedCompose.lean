import Cdenv.ComposeLifecycle
import Cdenv.Interaction

/-!
# Resumption and stop of a service set

Resumption starts the recorded containers one by one; a stop goes through Docker Compose. Both
first discover which containers the services resolve to and refuse a set that is unsafe.
-/
namespace Cdenv.RecordedCompose
open TextScan Fallible Identity Inspection ComposeLifecycle Interaction Program

/-- The services of an active generation with their primary container. -/
structure RecordedComposeRequest where
  identity : DockerResourceIdentity
  (project primaryService : Text)
  primary : ContainerId
  managedServices : List Text

structure ComposeStopRequest where
  projectName : Text
  managedServices : List Text

inductive ComposeStopOutcome where
  | stopped (facts : ComposeLifecycleFacts)
  | alreadyStopped (facts : ComposeLifecycleFacts)
  | missing

inductive ComposeServiceSetState where
  | completeRunning | completeStopped
  | partiallyRunning (running stopped : List Text)
  | missing (missing running stopped : List Text)
  | ambiguous (services : List Text)
  | primarySubstituted (actual : ContainerId)
deriving DecidableEq

/-- The failures that creation also has, those of a recorded set, and a lookup of a service
that is not in the map. -/
inductive RecordedComposeError where
  | lifecycle (source : ComposeLifecycleError)
  | invalidManagedSet
  | unsafeServiceSet (state : ComposeServiceSetState)
  | panicked
deriving DecidableEq

/-- A set that is incomplete, ambiguous or has another primary. -/
def ComposeServiceSetState.isUnsafe : ComposeServiceSetState → Bool
  | .missing .. | .ambiguous _ | .primarySubstituted _ => true
  | _ => false

def isCompletelyMissing (expected : ℕ) : ComposeServiceSetState → Bool
  | .missing missing running stopped =>
    missing.length == expected && running.isEmpty && stopped.isEmpty
  | _ => false

def single : List DiscoveredContainer → Option DiscoveredContainer
  | [container] => some container
  | _ => none

/-- The classification by the services of each kind and the primary that is not the
recorded one. -/
def serviceSetState (ambiguous missing running stopped : List Text)
    (substituted : Option ContainerId) : ComposeServiceSetState :=
  if !ambiguous.isEmpty then .ambiguous ambiguous
  else if !missing.isEmpty then .missing missing running stopped
  else match substituted with
    | some actual => .primarySubstituted actual
    | none =>
      if stopped.isEmpty then .completeRunning
      else if running.isEmpty then .completeStopped
      else .partiallyRunning running stopped

section
variable (request : RecordedComposeRequest)

/-- The containers that carry the labels of a service of the project. -/
def grouped (discovered : List DiscoveredContainer) (service : Text) : List DiscoveredContainer :=
  discovered.filter (isServiceOf request.project service)

/-- The state of the set, and the container of each resolved service. -/
def resolveServiceSet (discovered : List DiscoveredContainer) :
    ComposeServiceSetState × OrderedMap Text ContainerId :=
  let found := grouped request discovered
  let services := request.managedServices
  let missing := services.filter fun service => (found service).isEmpty
  let ambiguous := services.filter fun service => 1 < (found service).length
  let running := services.filter fun service => (single (found service)).any (·.isRunning)
  let stopped := services.filter fun service => (single (found service)).any (!·.isRunning)
  let managed := (OrderedMap.ofList (services.map fun service => (service, found service)))
    |>.filterMapValues fun containers => (single containers).map (·.id)
  let substituted := (managed.get? request.primaryService).filter (· != request.primary)
  (serviceSetState ambiguous missing running stopped substituted, managed)

def classifyComposeServiceSet (discovered : List DiscoveredContainer) : ComposeServiceSetState :=
  (resolveServiceSet request discovered).1

def isValidRecorded : Bool := isManagedSet request.managedServices request.primaryService

end

/-- The engine, Docker Compose and the cancellation token: whatever they answer, containers may be
started, stopped or replaced between any two calls. -/
inductive EngineCall where
  | isCancelled
  | discover (identity : DockerResourceIdentity)
  | inspect (id : ContainerId)
  | start (id : ContainerId)
  | stop (request : ComposeStopRequest)

/-- The error of the Compose adapter is only passed on. -/
abbrev EngineAnswer : EngineCall → Type
  | .isCancelled => Bool
  | .discover _ => Except BollardAdapterError (List DiscoveredContainer)
  | .inspect _ => Except BollardAdapterError ContainerInspection
  | .start _ => Except BollardAdapterError Unit
  | .stop _ => Except Text Unit

abbrev Engine := Program EngineAnswer RecordedComposeError

def ofExcept {α : Type} : Except ComposeLifecycleError α → Engine α
  | .ok a => pure a
  | .error e => fail (.lifecycle e)

def checkCancelled (completed : List Text) : Engine Unit := do
  let cancelled ← (call EngineCall.isCancelled : Engine Bool)
  ofExcept (ComposeLifecycle.checkCancelled cancelled completed)

def containerOf (managed : OrderedMap Text ContainerId) (service : Text) : Engine ContainerId :=
  match managed.get? service with
  | some container => pure container
  | none => fail .panicked

section
variable (request : RecordedComposeRequest)

def validateRecorded : Engine Unit :=
  if isValidRecorded request then pure () else fail .invalidManagedSet

def discover : Engine (List DiscoveredContainer) :=
  expect (call (EngineCall.discover request.identity))
    fun source => .lifecycle (.docker "discover managed Compose services" source)

def inspectService (operation : String) (container : ContainerId) (service : Text) :
    Engine ContainerInspection := do
  let inspection ← expect (call (EngineCall.inspect container))
    fun source => .lifecycle (.docker operation source)
  ofExcept (verifyService inspection container service request.project request.identity none)
  return inspection

def refuseUnsafe (state : ComposeServiceSetState) : Engine Unit :=
  if state.isUnsafe then fail (.unsafeServiceSet state) else pure ()

/-- The containers of the services, which must all be as expected. -/
def settle (completed : List Text) (expected : ComposeServiceSetState) :
    Engine ComposeLifecycleFacts := do
  checkCancelled completed
  let discovered ← discover request
  let (state, managed) := resolveServiceSet request discovered
  if state ≠ expected then fail (.unsafeServiceSet state)
  else return ⟨request.primary,managed⟩

/-- Starts what does not run, in the recorded order. -/
def startRecorded (managed : OrderedMap Text ContainerId) :
    List Text → List Text → Engine (List Text)
  | [], completed => pure completed
  | service::services, completed => do
    checkCancelled completed
    let container ← containerOf managed service
    let inspection ← inspectService request "inspect recorded Compose service" container service
    if inspection.running then startRecorded managed services completed
    else
      checkCancelled completed
      expect (call (EngineCall.start container))
        fun source => .lifecycle (.docker "start recorded Compose service" source)
      startRecorded managed services (completed++[service])

def resume : Engine ComposeLifecycleFacts := do
  validateRecorded request
  checkCancelled []
  let discovered ← discover request
  let (state, managed) := resolveServiceSet request discovered
  refuseUnsafe state
  let completed ← startRecorded request managed request.managedServices []
  settle request completed .completeRunning

def inspectSet (operation : String) (managed : OrderedMap Text ContainerId) :
    List Text → Engine Unit
  | [] => pure ()
  | service::services => do
    let container ← containerOf managed service
    let _ ← inspectService request operation container service
    inspectSet operation managed services

def verifyRecordedSet (managed : OrderedMap Text ContainerId) : Engine Unit :=
  inspectSet request "inspect recorded Compose service" managed request.managedServices

def refuseMismatch (stop : ComposeStopRequest) : Engine Unit :=
  if stop.projectName ≠ request.project ∨ stop.managedServices ≠ request.managedServices then
    fail .invalidManagedSet
  else pure ()

def down (stop : ComposeStopRequest) : Engine ComposeLifecycleFacts := do
  validateRecorded request
  refuseMismatch request stop
  checkCancelled []
  let discovered ← discover request
  let (state, managed) := resolveServiceSet request discovered
  refuseUnsafe state
  inspectSet request "inspect Compose service before stop" managed request.managedServices
  checkCancelled []
  expect (call (EngineCall.stop stop)) fun source => .lifecycle (.compose "managed stop" source)
  settle request [] .completeStopped

def stopRecorded (stop : ComposeStopRequest) : Engine ComposeStopOutcome := do
  validateRecorded request
  refuseMismatch request stop
  checkCancelled []
  let discovered ← discover request
  let (state, managed) := resolveServiceSet request discovered
  if isCompletelyMissing request.managedServices.length state then return .missing
  else if state = .completeStopped then
    verifyRecordedSet request managed
    return .alreadyStopped ⟨request.primary,managed⟩
  else
    refuseUnsafe state
    return .stopped (← down request stop)

end

section
variable {req : RecordedComposeRequest} {disc : List DiscoveredContainer}

theorem single_eq_some {ctrs : List DiscoveredContainer} {c : DiscoveredContainer} :
    single ctrs = some c ↔ ctrs = [c] := by
  match ctrs with
  | [] | [d] | d::e::rest => simp [single]

variable {svc : Text} {ambiguous : List Text} {substituted : Option ContainerId}

/-- The map has exactly the managed services that one container carries the labels of. -/
theorem get?_resolveServiceSet {id : ContainerId} :
    (resolveServiceSet req disc).2.get? svc = some id ↔ svc ∈ req.managedServices ∧
        ∃ c, grouped req disc svc = [c] ∧ c.id = id := by
  simp only [resolveServiceSet,OrderedMap.get?_filterMapValues,OrderedMap.get?_ofList_map,
    Option.map_eq_some_iff,single_eq_some]
  constructor
  · rintro ⟨ctrs,hf,c,hc,hid⟩
    split_ifs at hf with hs
    cases hf
    exact ⟨hs,c,hc,hid⟩
  · rintro ⟨hs,c,hc,hid⟩
    exact ⟨_,if_pos hs,c,hc,hid⟩

theorem isUnsafe_serviceSetState {missing run sp : List Text}
    (h : (serviceSetState ambiguous missing run sp substituted).isUnsafe = false) :
    ambiguous = [] ∧ missing = [] := by
  cases ambiguous with
  | cons svc svcs => simp [serviceSetState,ComposeServiceSetState.isUnsafe] at h
  | nil =>
    cases missing with
    | cons svc svcs => simp [serviceSetState,ComposeServiceSetState.isUnsafe] at h
    | nil => exact ⟨rfl,rfl⟩

/-- The two states in which every service is the same way. -/
def uniform (running : Bool) : ComposeServiceSetState :=
  if running then .completeRunning else .completeStopped

theorem isUnsafe_uniform (run : Bool) : (uniform run).isUnsafe = false := by
  cases run <;> rfl

theorem serviceSetState_uniform {missing run sp : List Text} {s : Bool}
    (h : serviceSetState ambiguous missing run sp substituted = uniform s) :
    (if s then sp else run) = [] := by
  have hs := isUnsafe_serviceSetState (h ▸ isUnsafe_uniform s)
  cases substituted with
  | some actual => cases s <;> simp [serviceSetState,hs,uniform] at h
  | none =>
    cases s with
    | true =>
      by_contra hst
      by_cases hr : run = [] <;>
        simp_all [serviceSetState,uniform]
    | false =>
      by_contra hr
      by_cases hst : sp = [] <;>
        simp_all [serviceSetState,uniform]

theorem grouped_of_safe (hst : (classifyComposeServiceSet req disc).isUnsafe = false)
    (hs : svc ∈ req.managedServices) :
    ∃ c, grouped req disc svc = [c] := by
  obtain ⟨ha,hm⟩ := isUnsafe_serviceSetState hst
  have hne := List.filter_eq_nil_iff.mp hm svc hs
  have hle := List.filter_eq_nil_iff.mp ha svc hs
  match hg : grouped req disc svc with
  | [] => simp [hg] at hne
  | [c] => exact ⟨c,rfl⟩
  | c::d::rest => simp [hg] at hle

theorem grouped_of_uniform {running : Bool}
    (hst : classifyComposeServiceSet req disc = uniform running)
    (hs : svc ∈ req.managedServices) :
    ∃ c, grouped req disc svc = [c] ∧ c.isRunning = running := by
  obtain ⟨c,hc⟩ := grouped_of_safe (hst ▸ isUnsafe_uniform running) hs
  refine ⟨c,hc,?_⟩
  have hn := serviceSetState_uniform hst
  cases running with
  | true | false =>
    have hno := List.filter_eq_nil_iff.mp hn svc hs
    simpa [hc,single] using hno

end

end Cdenv.RecordedCompose
