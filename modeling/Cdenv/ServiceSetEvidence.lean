import Cdenv.RecordedCompose

/-!
# What a returned service set rests on

A returned map says that every service has this container and that all of them run, or that
none does.

Containers are inspected as the discovery before resolved them, and returned as the last
discovery resolved them; nothing compares the two. A set that the first discovery shows
stopped is returned after an inspection whose state is not looked at.
-/
namespace Cdenv.RecordedCompose
open TextScan Fallible Identity Inspection ComposeLifecycle Interaction Program List

abbrev EngineConversation := Conversation EngineAnswer

/-- The engine, Docker Compose and the cancellation token. -/
abbrev EngineBehaviour := Outside EngineAnswer

inductive Operation where
  | resume
  | stop (request : ComposeStopRequest)

def discoveries (h : EngineConversation) : List (List DiscoveredContainer) :=
  h.filterMap fun
    | ⟨.discover _,.ok discovered⟩ => some discovered
    | _ => none

/-- What the inspections of a container said about its state, in order. -/
def inspectedStates (id : ContainerId) (h : EngineConversation) : List Bool :=
  h.filterMap fun
    | ⟨.inspect inspected,.ok inspection⟩ =>
      if inspected = id then some inspection.running else none
    | _ => none

def mutates : EngineCall → Bool
  | .start _ | .stop _ => true
  | _ => false

def observes : EngineCall → Bool
  | .discover _ | .inspect _ => true
  | _ => false

section
variable (request : RecordedComposeRequest)

def perform : Operation → Engine (Option (Bool × ComposeLifecycleFacts))
  | .resume => do return some (true, ← resume request)
  | .stop stop => do
    match ← stopRecorded request stop with
    | .stopped facts | .alreadyStopped facts => return some (false, facts)
    | .missing => return none

/-- The states in which the container of a service was seen: by an inspection, or by a
discovery that resolves the service to it. -/
def observedStates (service : Text) (id : ContainerId) (h : EngineConversation) : List Bool :=
  h.filterMap fun
    | ⟨.inspect inspected,.ok inspection⟩ =>
      if inspected = id then some inspection.running else none
    | ⟨.discover _,.ok discovered⟩ =>
      ((single (grouped request discovered service)).filter (·.id = id)).map (·.isRunning)
    | _ => none

def Passed (h : EngineConversation) (service : Text) (id : ContainerId) : Prop :=
  ∃ inspection, ⟨.inspect id,.ok inspection⟩ ∈ h ∧
    verifyService inspection id service request.project request.identity none = .ok ()

/-- Behind each entry stand an inspection of the container that was verified against the recorded
identity, and a last observation in the reported state. -/
structure Evident (h : EngineConversation) (running : Bool) (facts : ComposeLifecycleFacts) :
    Prop where
  passed : ∀ service id, facts.managed.get? service = some id → Passed request h service id
  observed : ∀ service id, facts.managed.get? service = some id →
    (observedStates request service id h).getLast? = some running

/-- A first discovery that shows an unsafe set is followed by no change. -/
def Unmoved (h : EngineConversation) : Prop :=
  ∀ discovered rest, discoveries h = discovered::rest →
    (classifyComposeServiceSet request discovered).isUnsafe = true → ∀ e ∈ h, mutates e.1 = false

def Sound (behaviour : EngineBehaviour) (operation : Operation) : Prop :=
  Unmoved request (talk behaviour (perform request operation) []).2 ∧
  ∀ running facts,
    (talk behaviour (perform request operation) []).1 = .ok (some (running, facts)) →
      Evident request (talk behaviour (perform request operation) []).2 running facts

/-- The last discovery resolves the services as the one before it did. Where there was only
one, the last inspection of each container shows it stopped. -/
def Steady (h : EngineConversation) : Prop :=
  match (discoveries h).reverse with
  | last::previous::_ => ∀ service ∈ request.managedServices,
      (resolveServiceSet request last).2.get? service =
        (resolveServiceSet request previous).2.get? service
  | [_] => ∀ id, (inspectedStates id h).getLast? ≠ some true
  | [] => True

end

variable {α : Type} {h : EngineConversation}

theorem runs_ofExcept {x : Except ComposeLifecycleError α} {a : α} :
    Runs (ofExcept x) h (.ok a) ↔ h = [] ∧ x = .ok a := by
  cases x with
  | ok b =>
    unfold ofExcept
    rw [runs_pure]
    simp only [Except.ok.injEq,eq_comm]
  | error e =>
    unfold ofExcept
    rw [runs_fail]
    simp

variable {done : List Text} {u : Unit}

theorem runs_checkCancelled :
    Runs (checkCancelled done) h (.ok u) ↔ h = [⟨.isCancelled,false⟩] := by
  simp only [checkCancelled,runs_bind_ok,runs_call,runs_ofExcept,
    ComposeLifecycle.checkCancelled,require_eq_ok,Except.ok.injEq,Bool.not_eq_true']
  constructor
  · rintro ⟨can,_,_,rfl,⟨_,rfl,rfl⟩,rfl,rfl⟩
    rfl
  · rintro rfl
    exact ⟨false,_,[],rfl,⟨_,rfl,rfl⟩,rfl,rfl⟩

variable {service : Text} {id : ContainerId}

theorem runs_containerOf {managed : OrderedMap Text ContainerId} :
    Runs (containerOf managed service) h (.ok id) ↔ h = [] ∧ managed.get? service = some id := by
  unfold containerOf
  cases managed.get? service with
  | some fs => simp [runs_pure,eq_comm]
  | none => simp [runs_fail]

section
variable {req : RecordedComposeRequest} {h : EngineConversation}

theorem runs_unless {c : Prop} [Decidable c] {er : RecordedComposeError} :
    Runs (if c then fail er else pure ()) h (.ok u) ↔ h = [] ∧ ¬c := by
  split_ifs with hc
  · simp [runs_fail,hc]
  · simp [runs_pure,hc]

theorem runs_discover {disc : List DiscoveredContainer} : Runs (discover req) h (.ok disc) ↔
      h = [⟨.discover req.identity,.ok disc⟩] := by
  simp only [discover,runs_expect_ok,runs_call]
  constructor
  · rintro ⟨_,rfl,⟨⟩⟩
    rfl
  · rintro rfl
    exact ⟨_,rfl,rfl⟩

variable {insp : ContainerInspection}

theorem runs_inspectService {op : String} :
    Runs (inspectService req op id service) h (.ok insp) ↔ h = [⟨.inspect id,.ok insp⟩] ∧
        verifyService insp id service req.project req.identity none = .ok () := by
  simp only [inspectService,runs_bind_ok,runs_expect_ok,runs_call,runs_ofExcept,runs_pure]
  constructor
  · rintro ⟨_,_,_,rfl,⟨_,rfl,⟨⟩⟩,⟨⟩,_,_,rfl,⟨rfl,hv⟩,rfl,⟨⟩⟩
    exact ⟨rfl,hv⟩
  · rintro ⟨rfl,hv⟩
    exact ⟨_,_,[],rfl,⟨_,rfl,rfl⟩,(),[],[],rfl,⟨rfl,hv⟩,rfl,rfl⟩

theorem runs_refuseUnsafe {s : ComposeServiceSetState} :
    Runs (refuseUnsafe s) h (.ok u) ↔ h = [] ∧ s.isUnsafe = false := by
  rw [refuseUnsafe,runs_unless,Bool.not_eq_true]

theorem runs_settle {ex : ComposeServiceSetState} {facts : ComposeLifecycleFacts}
    (hr : Runs (settle req done ex) h (.ok facts)) :
    ∃ disc, h = [⟨.isCancelled,false⟩,⟨.discover req.identity,.ok disc⟩] ∧
      classifyComposeServiceSet req disc = ex ∧
      facts.managed = (resolveServiceSet req disc).2 := by
  simp only [settle,runs_bind_ok,runs_checkCancelled,runs_discover] at hr
  obtain ⟨⟨⟩,_,_,rfl,rfl,disc,_,_,rfl,rfl,he⟩ := hr
  split_ifs at he with hs
  · cases (runs_fail.mp he).2
  · obtain ⟨rfl,hf⟩ := runs_pure.mp he
    cases hf
    exact ⟨disc,rfl,not_not.mp hs,rfl⟩

end

/-- A part of a conversation in which these services were inspected as the containers the map
gives them, and nothing was discovered. -/
structure Examined (request : RecordedComposeRequest) (managed : OrderedMap Text ContainerId)
    (services : List Text) (h : EngineConversation) : Prop where
  undiscovered : discoveries h = []
  verified : ∀ id inspection, ⟨.inspect id,.ok inspection⟩ ∈ h →
    ∃ service, managed.get? service = some id ∧
      verifyService inspection id service request.project request.identity none = .ok ()
  complete : ∀ service ∈ services, ∃ id, managed.get? service = some id ∧
    Passed request h service id

section
variable {req : RecordedComposeRequest} {managed : OrderedMap Text ContainerId}
variable {svcs : List Text} {h : EngineConversation}

theorem discoveries_append (h more : EngineConversation) :
    discoveries (h++more) = discoveries h++discoveries more :=
  filterMap_append

variable {more : EngineConversation}

theorem Passed.mono (hp : Passed req more service id) (hs : more ⊆ h) :
    Passed req h service id := by
  obtain ⟨insp,hm,hv⟩ := hp
  exact ⟨insp,hs hm,hv⟩

theorem Examined.append {others : List Text} (h₁ : Examined req managed svcs h)
    (h₂ : Examined req managed others more) :
    Examined req managed (svcs++others) (h++more) := by
  refine ⟨by rw [discoveries_append,h₁.undiscovered,h₂.undiscovered,append_nil],?_,?_⟩
  · intro id insp hm
    rcases mem_append.mp hm with hm | hm
    · exact h₁.verified id insp hm
    · exact h₂.verified id insp hm
  · intro service hs
    rcases mem_append.mp hs with hs | hs
    · obtain ⟨id,hid,hp⟩ := h₁.complete service hs
      exact ⟨id,hid,hp.mono (subset_append_left _ _)⟩
    · obtain ⟨id,hid,hp⟩ := h₂.complete service hs
      exact ⟨id,hid,hp.mono (subset_append_right _ _)⟩

theorem examined_nil : Examined req managed [] [] := ⟨rfl,by simp,by simp⟩

/-- An answered call that shows no container. -/
theorem examined_call {q : EngineCall} (a : EngineAnswer q) (hq : observes q = false) :
    Examined req managed [] [⟨q,a⟩] := by
  cases q with
  | discover _ | inspect _ => cases hq
  | isCancelled | start _ | stop _ => exact ⟨rfl,by simp,by simp⟩

theorem examined_inspection (hid : managed.get? service = some id)
    (hv : verifyService insp id service req.project req.identity none =
      .ok ()) : Examined req managed [service] [⟨.inspect id,.ok insp⟩] := by
  refine ⟨rfl,?_,?_⟩
  · intro id' insp' hm
    cases mem_singleton.mp hm
    exact ⟨service,hid,hv⟩
  · intro service' hs
    cases mem_singleton.mp hs
    exact ⟨id,hid,insp,mem_singleton_self _,hv⟩

theorem examined_startRecorded {std : List Text}
    (hru : Runs (startRecorded req managed svcs done) h (.ok std)) :
    Examined req managed svcs h := by
  induction svcs generalizing done h with
  | nil =>
    obtain ⟨rfl,-⟩ := runs_pure.mp hru
    exact examined_nil
  | cons service svcs ih =>
    simp only [startRecorded,runs_bind_ok,runs_checkCancelled,runs_containerOf,
      runs_inspectService] at hru
    obtain ⟨-,_,_,rfl,rfl,id,_,_,rfl,⟨rfl,hid⟩,insp,_,xs,rfl,⟨rfl,hv⟩,hr⟩ := hru
    refine (examined_call (q := .isCancelled) false rfl).append
      (examined_nil.append ((examined_inspection hid hv).append ?_))
    cases hrn : insp.running with
    | true =>
      rw [hrn,if_pos rfl] at hr
      exact ih hr
    | false =>
      rw [hrn,if_neg Bool.false_ne_true] at hr
      simp only [runs_bind_ok,runs_checkCancelled,runs_expect_ok,runs_call] at hr
      obtain ⟨-,_,_,rfl,rfl,-,_,_,rfl,⟨a,rfl,-⟩,hr⟩ := hr
      exact (examined_call (q := .isCancelled) false rfl).append
        ((examined_call a rfl).append (ih hr))

theorem examined_inspectSet {op : String} (hr : Runs (inspectSet req op managed svcs) h (.ok u)) :
    Examined req managed svcs h := by
  induction svcs generalizing h with
  | nil =>
    obtain ⟨rfl,-⟩ := runs_pure.mp hr
    exact examined_nil
  | cons service svcs ih =>
    simp only [inspectSet,runs_bind_ok,runs_containerOf,runs_inspectService] at hr
    obtain ⟨id,_,_,rfl,⟨rfl,hid⟩,insp,_,xs,rfl,⟨rfl,hv⟩,hre⟩ := hr
    exact examined_nil.append ((examined_inspection hid hv).append (ih hre))

end

section
variable {req : RecordedComposeRequest} {h : EngineConversation}

/-- The service label says which service a verified inspection is of. -/
theorem service_of_verified (hv : verifyService insp id service req.project req.identity none =
      .ok ()) : (insp.labels.get? composeServiceLabel).getD [] = service := by
  obtain ⟨_,hc,_⟩ := bind_eq_ok.mp hv
  have hs := forM_eq_ok.mp hc ("Compose service label",
    (insp.labels.get? composeServiceLabel).getD [], service) (by simp [serviceChecks])
  exact beq_iff_eq.mp (require_eq_ok.mp hs)

theorem inspectedStates_append (id : ContainerId) (h more : EngineConversation) :
    inspectedStates id (h++more) = inspectedStates id h++inspectedStates id more :=
  filterMap_append

theorem observedStates_append (service : Text) (id : ContainerId) (h more : EngineConversation) :
    observedStates req service id (h++more) =
      observedStates req service id h++observedStates req service id more :=
  filterMap_append

theorem observedStates_of_undiscovered (service : Text) (id : ContainerId)
    (hn : discoveries h = []) : observedStates req service id h = inspectedStates id h := by
  apply filterMap_congr
  rintro ⟨q,a⟩ hm
  cases q with
  | discover ident =>
    cases a with
    | ok disc => cases filterMap_eq_nil_iff.mp hn _ hm
    | error e => rfl
  | inspect inspected => cases a <;> rfl
  | isCancelled | start _ | stop _ => rfl

variable {disc : List DiscoveredContainer} {facts : ComposeLifecycleFacts}
variable {stop : ComposeStopRequest} {running : Bool}

theorem observedStates_discovery (hst : classifyComposeServiceSet req disc = uniform running)
    (hid : (resolveServiceSet req disc).2.get? service = some id) :
    observedStates req service id [⟨.discover req.identity,.ok disc⟩] = [running] := by
  obtain ⟨hs,c,hc,rfl⟩ := get?_resolveServiceSet.mp hid
  obtain ⟨d,hd,hr⟩ := grouped_of_uniform hst hs
  obtain rfl : c = d := by simpa using hc.symm.trans hd
  simp [observedStates,hc,single,hr]

theorem mem_inspectedStates : running ∈ inspectedStates id h ↔ ∃ insp : ContainerInspection,
      ⟨.inspect id,.ok insp⟩ ∈ h ∧ insp.running = running := by
  simp only [inspectedStates,mem_filterMap]
  constructor
  · rintro ⟨⟨q,a⟩,hm,hs⟩
    split at hs
    · rename_i inspected insp heq
      split_ifs at hs with hid
      cases heq
      subst hid
      exact ⟨insp,hm,Option.some.inj hs⟩
    · cases hs
  · rintro ⟨insp,hm,rfl⟩
    exact ⟨_,hm,if_pos rfl⟩

/-- A set that was inspected as one discovery resolved it and returned as the next did. -/
theorem evident_iff_of_rediscovered {fr more : EngineConversation}
    {fst l : List DiscoveredContainer} {running : Bool}
    (hfr : ∀ id a, ⟨.inspect id,a⟩ ∉ fr)
    (hmo : Examined req (resolveServiceSet req fst).2 req.managedServices more)
    (hst : classifyComposeServiceSet req l = uniform running)
    (hf : facts.managed = (resolveServiceSet req l).2)
    (hh : h = fr++⟨.discover req.identity,.ok fst⟩ :: (more++[⟨.discover req.identity,.ok l⟩])) :
    Evident req h running facts ↔ Steady req h := by
  have hd : (discoveries h).reverse = l::fst::(discoveries fr).reverse := by
    rw [hh,discoveries_append,← singleton_append,discoveries_append,discoveries_append,
      hmo.undiscovered]
    simp [discoveries]
  have hsu : more ⊆ h := by
    intro e he
    simp [hh,he]
  unfold Steady
  rw [hd]
  constructor
  · intro hev service hs
    obtain ⟨c,hc,-⟩ := grouped_of_uniform hst hs
    have hl := get?_resolveServiceSet.mpr ⟨hs,c,hc,rfl⟩
    obtain ⟨insp,hm,hv⟩ := hev.passed service c.id (hf ▸ hl)
    -- Every inspection was verified for the service it was made for, and names that service.
    have hm : ⟨.inspect c.id,.ok insp⟩ ∈ more := by
      rw [hh] at hm
      simpa [hfr] using hm
    obtain ⟨b,ho,hv'⟩ := hmo.verified _ _ hm
    have hsa := (service_of_verified hv').symm.trans (service_of_verified hv)
    rw [hl,← hsa,ho]
  · intro hse
    constructor
    · intro service id hid
      rw [hf] at hid
      obtain ⟨hs,-⟩ := get?_resolveServiceSet.mp hid
      obtain ⟨inspected,hi,hp⟩ := hmo.complete service hs
      have hsa : id = inspected := by
        rw [hse service hs,hi] at hid
        exact (Option.some.inj hid).symm
      exact hsa ▸ hp.mono hsu
    · intro service id hid
      have hl : h = (fr++⟨.discover req.identity,.ok fst⟩::more) ++
          [⟨.discover req.identity,.ok l⟩] := by simp [hh]
      rw [hl,observedStates_append,observedStates_discovery hst (hf ▸ hid),getLast?_concat]

/-- A set that was inspected as the only discovery resolved it. -/
theorem evident_iff_of_inspected
    (hmo : Examined req (resolveServiceSet req disc).2 req.managedServices more)
    (hf : facts.managed = (resolveServiceSet req disc).2)
    (hh : h = [⟨.isCancelled,false⟩,⟨.discover req.identity,.ok disc⟩]++more) :
    Evident req h false facts ↔ Steady req h := by
  have hd : (discoveries h).reverse = [disc] := by
    rw [hh,discoveries_append,hmo.undiscovered]
    rfl
  have hs : ∀ id, inspectedStates id h = inspectedStates id more := by
    intro id
    rw [hh,inspectedStates_append]
    rfl
  have hp : ∀ service id, facts.managed.get? service = some id → Passed req more service id := by
    intro service id hid
    rw [hf] at hid
    obtain ⟨hse,-⟩ := get?_resolveServiceSet.mp hid
    obtain ⟨inspected,hi,hp⟩ := hmo.complete service hse
    rw [hi] at hid
    exact Option.some.inj hid ▸ hp
  have hne : ∀ service id, facts.managed.get? service = some id → inspectedStates id h ≠ [] := by
    intro service id hid
    obtain ⟨insp,hm,-⟩ := hp service id hid
    rw [hs]
    exact ne_nil_of_mem (mem_inspectedStates.mpr ⟨insp,hm,rfl⟩)
  have ho : ∀ service id, facts.managed.get? service = some id →
      (observedStates req service id h).getLast? = (inspectedStates id h).getLast? := by
    intro service id hid
    have hl := hne service id hid
    rw [hs] at hl ⊢
    rw [hh,observedStates_append,observedStates_of_undiscovered service id hmo.undiscovered,
      getLast?_append_of_ne_nil _ hl]
  unfold Steady
  rw [hd]
  constructor
  · intro he id hl
    have hm := mem_of_getLast? hl
    rw [hs,mem_inspectedStates] at hm
    obtain ⟨insp,hm,-⟩ := hm
    obtain ⟨service,hid,-⟩ := hmo.verified id insp hm
    have hfa := he.observed service id (hf ▸ hid)
    rw [ho service id (hf ▸ hid),hl] at hfa
    cases hfa
  · intro hst
    constructor
    · intro service id hid
      exact (hp service id hid).mono (by simp [hh])
    · intro service id hid
      rw [ho service id hid,getLast?_eq_some_getLast (hne service id hid)]
      have hl := hst id
      rw [getLast?_eq_some_getLast (hne service id hid)] at hl
      simpa using hl

theorem runs_validateRecorded :
    Runs (validateRecorded req) h (.ok u) ↔ h = [] ∧ isValidRecorded req = true := by
  rw [validateRecorded,← ite_not,runs_unless,not_not]

theorem runs_refuseMismatch : Runs (refuseMismatch req stop) h (.ok u) ↔ h = [] ∧
      ¬(stop.projectName ≠ req.project ∨ stop.managedServices ≠ req.managedServices) :=
  runs_unless

theorem evident_iff_of_resume (hr : Runs (resume req) h (.ok facts)) :
    Evident req h true facts ↔ Steady req h := by
  simp only [resume,runs_bind_ok,runs_validateRecorded,runs_checkCancelled,runs_discover,
    runs_refuseUnsafe] at hr
  obtain ⟨-,_,_,rfl,⟨rfl,-⟩,-,_,_,rfl,rfl,fst,_,_,rfl,rfl,-,_,_,rfl,
    ⟨rfl,-⟩,done,more,_,rfl,hm,hs⟩ := hr
  obtain ⟨l,rfl,hst,hf⟩ := runs_settle hs
  have he := (examined_startRecorded hm).append (examined_call (q := .isCancelled) false rfl)
  rw [append_nil] at he
  exact @evident_iff_of_rediscovered req _ facts [⟨.isCancelled,false⟩] _ fst l true
    (by simp) he hst hf (by simp)

theorem evident_iff_of_down {fr : EngineConversation} (hfr : ∀ id a, ⟨.inspect id,a⟩ ∉ fr)
    (hr : Runs (down req stop) h (.ok facts)) :
    Evident req (fr++h) false facts ↔ Steady req (fr++h) := by
  simp only [down,runs_bind_ok,runs_validateRecorded,runs_checkCancelled,runs_discover,
    runs_refuseMismatch,runs_refuseUnsafe,runs_expect_ok,runs_call] at hr
  obtain ⟨-,_,_,rfl,⟨rfl,-⟩,-,_,_,rfl,⟨rfl,-⟩,-,_,_,rfl,rfl,fst,_,_,rfl,rfl,
    -,_,_,rfl,⟨rfl,-⟩,_,more,_,rfl,hm,-,_,_,rfl,rfl,-,_,_,rfl,⟨a,rfl,-⟩,hs⟩ := hr
  obtain ⟨l,rfl,hst,hf⟩ := runs_settle hs
  have he := (examined_inspectSet hm).append
    ((examined_call (q := .isCancelled) false rfl).append ((examined_call a rfl).append
      (examined_call (q := .isCancelled) false rfl)))
  simp only [append_nil] at he
  exact @evident_iff_of_rediscovered req _ facts (fr++[⟨.isCancelled,false⟩]) _ fst l
    false (by simpa using hfr) he hst hf (by simp)

theorem evident_iff_of_stopRecorded {out : ComposeStopOutcome}
    (ho : out = .stopped facts ∨ out = .alreadyStopped facts)
    (hru : Runs (stopRecorded req stop) h (.ok out)) :
    Evident req h false facts ↔ Steady req h := by
  simp only [stopRecorded,runs_bind_ok,runs_validateRecorded,runs_checkCancelled,
    runs_refuseMismatch,runs_discover] at hru
  obtain ⟨-,_,_,rfl,⟨rfl,-⟩,-,_,_,rfl,⟨rfl,-⟩,-,_,_,rfl,rfl,disc,_,xs,rfl,rfl,hr⟩ := hru
  split_ifs at hr with hmi hs
  · obtain ⟨-,hok⟩ := runs_pure.mp hr
    cases hok
    rcases ho with ho | ho <;> cases ho
  · simp only [runs_bind_ok,runs_pure,verifyRecordedSet] at hr
    obtain ⟨_,more,_,rfl,hm,rfl,hok⟩ := hr
    cases hok
    rcases ho with ho | ho <;> cases ho
    exact evident_iff_of_inspected (examined_inspectSet hm) rfl (by simp)
  · simp only [runs_bind_ok,runs_pure,runs_refuseUnsafe] at hr
    obtain ⟨-,_,_,rfl,⟨rfl,-⟩,returned,down,_,rfl,hd,rfl,hok⟩ := hr
    cases hok
    rcases ho with ho | ho <;> cases ho
    have hi := @evident_iff_of_down req _ facts stop
      [⟨.isCancelled,false⟩,⟨.discover req.identity,.ok disc⟩] (by simp) hd
    simpa using hi

theorem evident_iff_of_perform {op : Operation}
    (hr : Runs (perform req op) h (.ok (some (running, facts)))) :
    Evident req h running facts ↔ Steady req h := by
  cases op with
  | resume =>
    simp only [perform,runs_bind_ok,runs_pure] at hr
    obtain ⟨returned,_,_,rfl,hre,rfl,hok⟩ := hr
    cases hok
    rw [append_nil]
    exact evident_iff_of_resume hre
  | stop stop =>
    simp only [perform,runs_bind_ok] at hr
    obtain ⟨out,_,_,rfl,hs,he⟩ := hr
    cases out with
    | stopped _ | alreadyStopped _ =>
      obtain ⟨rfl,hok⟩ := runs_pure.mp he
      cases hok
      rw [append_nil]
      exact evident_iff_of_stopRecorded (by simp) hs
    | missing => cases (runs_pure.mp he).2

def Still (h : EngineConversation) : Prop := ∀ e ∈ h, mutates e.1 = false

/-- However the program ends, an unsafe set is not changed. -/
abbrev Spares {α : Type} (request : RecordedComposeRequest) (m : Engine α)
    (h : EngineConversation) : Prop :=
  Ensures (fun _ => Unmoved request) (fun _ => Unmoved request) m h

theorem Still.unmoved (hs : Still h) : Unmoved req h := fun _ _ _ _ => hs

/-- Once the first discovery has shown a safe set, anything may follow. -/
theorem ensures_unmoved_of_safe (hs : (classifyComposeServiceSet req disc).isUnsafe = false)
    (hf : discoveries h = [disc]) (m : Engine α) : Spares req m h := by
  refine (ensures_extends m h).mono ?_ ?_
  all_goals
    rintro - _ ⟨more,rfl⟩ b xs ho hu
    rw [discoveries_append,hf] at ho
    cases ho
    rw [hs] at hu
    cases hu

theorem ensures_unmoved_of_first {next : List DiscoveredContainer → Engine α}
    (hn : ∀ disc h, discoveries h = [disc] → Still h → Spares req (next disc) h) :
    Spares req (do checkCancelled []; next (← discover req)) [] := by
  intro can
  cases can with
  | true => exact Still.unmoved (by simp [Still,mutates])
  | false =>
    intro a
    cases a with
    | error e => exact Still.unmoved (by simp [Still,mutates])
    | ok disc => exact hn disc _ rfl (by simp [Still,mutates])

theorem ensures_refuseUnsafe {m : Engine α} (hf : discoveries h = [disc])
    (hst : Still h) : Spares req
      (refuseUnsafe (classifyComposeServiceSet req disc) >>= fun _ => m) h := by
  cases hs : (classifyComposeServiceSet req disc).isUnsafe with
  | true =>
    rw [refuseUnsafe,hs]
    exact hst.unmoved
  | false => exact ensures_unmoved_of_safe hs hf _

theorem ensures_resume : Spares req (resume req) [] := by
  unfold resume validateRecorded
  cases isValidRecorded req with
  | false => exact Still.unmoved (by simp [Still])
  | true =>
    exact ensures_unmoved_of_first fun disc h hf hs => ensures_refuseUnsafe hf hs

theorem ensures_stopRecorded : Spares req (stopRecorded req stop) [] := by
  unfold stopRecorded validateRecorded refuseMismatch
  cases isValidRecorded req with
  | false => exact Still.unmoved (by simp [Still])
  | true =>
    by_cases hm : stop.projectName ≠ req.project ∨ stop.managedServices ≠ req.managedServices
    · rw [if_pos hm]
      exact Still.unmoved (by simp [Still])
    · rw [if_neg hm]
      refine ensures_unmoved_of_first fun disc h hf hs => ?_
      dsimp only
      split_ifs with hmi hst
      · exact hs.unmoved
      · refine ensures_unmoved_of_safe ?_ hf _
        rw [classifyComposeServiceSet,hst]
        rfl
      · exact ensures_refuseUnsafe hf hs

theorem ensures_perform (op : Operation) : Spares req (perform req op) [] := by
  cases op with
  | resume => exact ensures_resume.bind fun _ _ hu => hu
  | stop stop =>
    refine ensures_stopRecorded.bind ?_
    rintro (facts | facts | -) h hu <;> exact hu

/-- The first part holds of every engine. An entry of the returned map can be without
verification or with a last observation that contradicts it, and is not so exactly if the
returned resolution is the inspected one. -/
theorem sound_iff (request : RecordedComposeRequest) (behaviour : EngineBehaviour)
    (operation : Operation) :
    Sound request behaviour operation ↔ ∀ reported,
      (talk behaviour (perform request operation) []).1 = .ok (some reported) →
        Steady request (talk behaviour (perform request operation) []).2 := by
  have hu := Ensures.talk (P := fun _ => Unmoved request) behaviour
    (@ensures_perform request operation)
  obtain ⟨h,hc,hr⟩ := runs_talk behaviour (perform request operation) []
  unfold Sound
  rw [hc] at hu ⊢
  generalize (talk behaviour (perform request operation) []).1 = result at hr ⊢
  constructor
  · rintro ⟨-,he⟩ ⟨running,facts⟩ rfl
    exact (evident_iff_of_perform hr).mp (he running facts rfl)
  · intro hs
    refine ⟨hu,?_⟩
    rintro running facts rfl
    exact (evident_iff_of_perform hr).mpr (hs _ rfl)

end

section sample

def sampleLabels : OrderedMap Text Text :=
  .ofList [(installationLabel, "inst"),(workspaceLabel, "main"),
    (generationLabel, "1"),(profileLabel, "v1"),
    (composeProjectLabel, "proj"),(composeServiceLabel, "app")]

def sampleRecorded : RecordedComposeRequest where
  identity := .sample
  project := "proj"
  primaryService := "app"
  primary := .sample
  managedServices := ["app"]

/-- The service is stopped when it is discovered and running when it is inspected. -/
def restartedBetween : EngineBehaviour
  | _, .isCancelled => false
  | _, .discover _ => .ok [⟨.sample,[],none,sampleLabels,some "exited"⟩]
  | _, .inspect id => .ok {
      id
      name := "app"
      imageId := .sample
      labels := sampleLabels
      user := []
      workingDirectory := []
      mounts := []
      ports := []
      running := true }
  | _, .start _ => .ok ()
  | _, .stop _ => .ok ()

def sampleStop : Operation := .stop ⟨"proj",["app"]⟩

/-- The running service is reported as already stopped. -/
theorem alreadyStopped_while_running :
    (talk restartedBetween (perform sampleRecorded sampleStop) []).1 =
        .ok (some (false, ⟨.sample,.ofList [("app", .sample)]⟩)) ∧
      (observedStates sampleRecorded "app" .sample
        (talk restartedBetween (perform sampleRecorded sampleStop) []).2).getLast? = some true ∧
      ¬Sound sampleRecorded restartedBetween sampleStop := by
  have hr : (talk restartedBetween (perform sampleRecorded sampleStop) []).1 =
      .ok (some (false, ⟨.sample,.ofList [("app", .sample)]⟩)) := by
    decide +kernel
  have hl : (observedStates sampleRecorded "app" .sample
      (talk restartedBetween (perform sampleRecorded sampleStop) []).2).getLast? = some true := by
    decide +kernel
  refine ⟨hr,hl,?_⟩
  intro hs
  have hf := (hs.2 _ _ hr).observed "app" .sample (by decide +kernel)
  cases hf

end sample

end Cdenv.RecordedCompose
