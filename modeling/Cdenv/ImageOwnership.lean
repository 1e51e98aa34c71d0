import Cdenv.ImageCreation

/-!
# What a creation leaves behind

Along every conversation with Docker, the owned resources are exactly the container and the
generated image that Docker has returned to the call. A failed creation has removed each of
them right after an inspection that showed its identity, or reports that it could not. A
successful one ends with an inspection of the started container. Nothing else is ever
started, stopped or removed.
-/
namespace Cdenv.ImageCreation
open TextScan Fallible Identity DockerCommand Inspection WorkspaceRecord Interaction Program List
open ImageRebuild (PreparedImage)

abbrev DockerConversation := Conversation DockerAnswer

abbrev DockerBehaviour := Outside DockerAnswer

def creations (h : DockerConversation) : List (DockerCreateRequest × ContainerId) :=
  h.filterMap fun
    | ⟨.create request _,.ok id⟩ => some (request, id)
    | _ => none

def builtImages (h : DockerConversation) : List ImageId :=
  h.filterMap fun
    | ⟨.build _,.ok id⟩ => some id
    | _ => none

/-- A start, a stop or a removal is of something that was returned before. -/
def Targeted (before : DockerConversation) (e : Event DockerAnswer) : Prop :=
  match e.1 with
  | .start id | .stop id _ | .removeContainer id => ∃ created, (created, id) ∈ creations before
  | .removeImage id => id ∈ builtImages before
  | _ => True

def ReportsContainer : ImageContainerError → Prop
  | .cleanupFailed _ failures => ∃ source, .container source ∈ failures
  | _ => False

def ReportsImage : ImageContainerError → Prop
  | .cleanupFailed _ failures => ∃ source, .image source ∈ failures
  | _ => False

def RemovedImage (identity : DockerResourceIdentity) (h : DockerConversation) (id : ImageId) :
    Prop :=
  ∃ before inspection after,
    h = before++⟨.inspectImage id.value,.ok inspection⟩::⟨.removeImage id,.ok ()⟩::after ∧
    inspection.id = id ∧ Labelled inspection.labels identity ∧
    inspection.labels.get? generatedImageLabel = some "true".toList

inductive Operation where
  | create
  | createPrepared (prepared : PreparedImage)

section
variable (request : ImageContainerCreateRequest)

/-- The removal follows an inspection that showed the name, the image and the labels. -/
def RemovedContainer (h : DockerConversation) (created : DockerCreateRequest × ContainerId) :
    Prop :=
  ∃ before inspection image after,
    h = before++⟨.inspectContainer created.2,.ok inspection⟩ ::
      ⟨.removeContainer created.2,.ok ()⟩::after ∧
    created.1.image = image.value ∧
    Verified inspection (expectation request created.2 image none)

structure Accounted (error : ImageContainerError) (h : DockerConversation) : Prop where
  containers : ∀ created ∈ creations h, RemovedContainer request h created ∨ ReportsContainer error
  images : ∀ id ∈ builtImages h, RemovedImage request.identity h id ∨ ReportsImage error

/-- The image that the operation is to create from. -/
def Provides : Operation → DockerConversation → ImageId → Prop
  | .createPrepared prepared, _, image => image = prepared.image
  | .create, h, image =>
    match request.build with
    | .image reference =>
      ∃ inspection, ⟨.inspectImage reference,.ok inspection⟩ ∈ h ∧ inspection.id = image
    | .dockerfile _ => image ∈ builtImages h
    | .compose => False

/-- The container was created as requested, and its last inspection, after its start, shows
what was requested. -/
structure Confirmed (host : HostRequirementEvaluation) (facts : ImageContainerFacts)
    (h : DockerConversation) : Prop where
  observed : ∃ before middle inspection,
    h = before++⟨.start facts.container,.ok ()⟩ ::
      (middle++[⟨.inspectContainer facts.container,.ok inspection⟩]) ∧
    (createRequest request host facts.image, facts.container) ∈ creations before ∧
    Verified inspection (expectation request facts.container facts.image (some true))
  generation : facts.generation = request.identity.generation
  running : facts.running = true

def perform (host : Except Text HostRequirementEvaluation) : Operation → Docker ImageContainerFacts
  | .create => create request host
  | .createPrepared prepared => createPrepared request prepared host

end

/-- The owned resources are what Docker has returned so far. -/
structure Held (request : ImageContainerCreateRequest) (host : HostRequirementEvaluation)
    (owned : OwnedResources) (h : DockerConversation) : Prop where
  created : ∀ created, created ∈ creations h ↔ ∃ image,
    owned.containerImage = some image ∧ created.1 = createRequest request host image ∧
      owned.container = some created.2
  built : builtImages h = owned.generatedImage.toList
  targeted : Throughout Targeted h

section
variable {req : ImageContainerCreateRequest} {host : HostRequirementEvaluation}
variable {owned : OwnedResources} {h : DockerConversation}

theorem creations_append (h more : DockerConversation) :
    creations (h++more) = creations h++creations more :=
  filterMap_append

theorem builtImages_append (h more : DockerConversation) :
    builtImages (h++more) = builtImages h++builtImages more :=
  filterMap_append

theorem held_nil : Held req host {} [] := ⟨by simp [creations],rfl,throughout_nil⟩

/-- The owned resources stay what Docker has returned, whether the program fails or not. -/
abbrev Holding (request : ImageContainerCreateRequest) (host : HostRequirementEvaluation)
    (owned : OwnedResources) {ε α : Type} (I : α → DockerConversation → Prop)
    (m : Program DockerAnswer ε α) (h : DockerConversation) : Prop :=
  Ensures (fun a h' => Held request host owned h' ∧ I a h') (fun _ => Held request host owned) m h

theorem ensures_ofExcept_bind {ε α β : Type} {x : Except ε α} {f : α → Program DockerAnswer ε β}
    {I : β → DockerConversation → Prop} {F : ε → DockerConversation → Prop}
    (hok : ∀ a, x = .ok a → Ensures I F (f a) h) (he : ∀ e, F e h) :
    Ensures I F (ofExcept x >>= f) h := by
  cases x with
  | ok a => exact hok a rfl
  | error e => exact he e

theorem ensures_holding {α : Type} {m : Docker α} {I : α → DockerConversation → Prop}
    (hm : Ensures I (fun _ => Held req host owned) m h) :
    Ensures I (fun e => Held req host e.1) (holding owned m) h := by
  refine ensures_expect (ensures_attempt.mpr (hm.mono ?_ ?_))
  · intro a h ha
    exact ⟨fun b hb => Except.ok.inj hb ▸ ha,nofun⟩
  · intro e h he
    exact ⟨nofun,fun e' he' => he⟩

section held
variable {container : ContainerId} {image : ImageId}
variable (hh : Held req host owned h)
include hh

theorem Held.concat {e : Event DockerAnswer} (ht : Targeted h e)
    (hc : creations [e] = []) (hb : builtImages [e] = []) :
    Held req host owned (h++[e]) := by
  refine ⟨?_,?_,throughout_concat.mpr ⟨hh.targeted,ht⟩⟩
  · rw [creations_append,hc,append_nil]
    exact hh.created
  · rw [builtImages_append,hb,append_nil]
    exact hh.built

theorem Held.mem_creations (hco : owned.container = some container)
    (him : owned.containerImage = some image) :
    (createRequest req host image, container) ∈ creations h :=
  (hh.created _).mpr ⟨image,him,rfl,hco⟩

theorem Held.not_mem_creations (hn : owned.container = none)
    (cr : DockerCreateRequest × ContainerId) : cr ∉ creations h := by
  intro hc
  obtain ⟨-,-,-,hs⟩ := (hh.created cr).mp hc
  rw [hn] at hs
  cases hs

theorem Held.checkCancellation : Holding req host owned (fun _ h' => h' = h++[⟨.isCancelled,false⟩])
      checkCancellation h := by
  intro can
  have hn := hh.concat (e := ⟨.isCancelled,can⟩) trivial rfl rfl
  cases can with
  | true => exact hn
  | false => exact ⟨hn,rfl⟩

theorem Held.inspectImage {ε : Type} (ref : Text) (fl : BollardAdapterError → ε) :
    Holding req host owned (fun insp h' => h' = h++[⟨.inspectImage ref,.ok insp⟩])
      (expect (call (DockerCall.inspectImage ref)) fl) h := by
  intro a
  have hn := hh.concat (e := ⟨.inspectImage ref,a⟩) trivial rfl rfl
  cases a with
  | ok insp => exact ⟨hn,rfl⟩
  | error e => exact hn

theorem Held.inspectContainer {ε : Type} (container : ContainerId) (fl : BollardAdapterError → ε) :
    Holding req host owned (fun insp h' => h' = h++[⟨.inspectContainer container,.ok insp⟩])
      (expect (call (DockerCall.inspectContainer container)) fl) h := by
  intro a
  have hn := hh.concat (e := ⟨.inspectContainer container,a⟩) trivial rfl rfl
  cases a with
  | ok insp => exact ⟨hn,rfl⟩
  | error e => exact hn

theorem Held.inspectAndVerify (container : ContainerId) (image : ImageId) (run : Bool) :
    Holding req host owned (fun insp h' => h' = h++[⟨.inspectContainer container,.ok insp⟩] ∧
        Verified insp (expectation req container image (some run)))
      (inspectAndVerify req container image run) h := by
  refine (hh.inspectContainer container _).bind fun insp h' ⟨hh,hh'⟩ => ?_
  refine ensures_ofExcept_bind (fun _ hi => ?_) fun _ => hh
  refine ensures_ofExcept_bind (fun _ _ => ?_) fun _ => hh
  exact ⟨hh,hh',verifyContainer_eq_ok.mp (mapError_eq_ok.mp hi)⟩

theorem Held.startCandidate (hco : owned.container = some container)
    (him : owned.containerImage = some image)
    (accept : ContainerInspection → ImageInspection →
      Except ImageContainerError ContainerArchitecture) :
    Holding req host owned (fun fa h' => Confirmed req host fa h' ∧ fa.image = image)
      (startCandidate req host container image accept) h := by
  refine hh.checkCancellation.bind fun _ h ⟨hh,_⟩ => ?_
  refine (hh.inspectAndVerify container image false).bind fun cr h ⟨hh,_⟩ => ?_
  refine (hh.inspectImage _ _).bind fun containerImage h ⟨hh,_⟩ => ?_
  refine ensures_ofExcept_bind (fun architecture _ => ?_) fun _ => hh
  refine hh.checkCancellation.bind fun _ h ⟨hh,_⟩ => ?_
  have hm := hh.mem_creations hco him
  refine Ensures.bind (I := fun _ h' => Held req host owned h' ∧
    h' = h++[⟨.start container,.ok ()⟩]) ?_ ?_
  · intro a
    have hn := hh.concat (e := ⟨.start container,a⟩) ⟨_,hm⟩ rfl rfl
    cases a with
    | ok u => exact ⟨hn,rfl⟩
    | error e => exact hn
  · rintro - std ⟨hh,hs⟩
    refine hh.checkCancellation.bind fun _ h' ⟨hh,hh'⟩ => ?_
    refine (hh.inspectAndVerify container image true).bind fun run h'' hr => ?_
    obtain ⟨hh,hh'',hv⟩ := hr
    refine ⟨hh,⟨⟨h,[⟨.isCancelled,false⟩],run,?_,?_,?_⟩,rfl,rfl⟩,rfl⟩
    · rw [hh'',hh',hs,hv.id]
      simp [expectation]
    all_goals rwa [hv.id]

theorem Held.createCandidate (hn : owned.container = none)
    (image : ImageId) (accept : ContainerInspection → ImageInspection →
      Except ImageContainerError ContainerArchitecture) :
    Ensures (fun fa h' => Throughout Targeted h' ∧ Confirmed req host fa h' ∧ fa.image = image)
      (fun e => Held req host e.1) (createCandidate req host owned image accept) h := by
  have hno := hh.not_mem_creations hn
  have hh : Held req host { owned with containerImage := some image } h :=
    ⟨by simp [hno,hn],hh.built,hh.targeted⟩
  refine (ensures_holding hh.checkCancellation).bind fun _ h' ⟨hh,_⟩ => ?_
  have hno := eq_nil_iff_forall_not_mem.mpr (hh.not_mem_creations hn)
  refine Ensures.bind (I := fun container => Held req host
    { owned with containerImage := some image, container := some container })
    (ensures_holding ?_) ?_
  · intro a
    cases a with
    | error e => exact hh.concat trivial rfl rfl
    | ok container =>
      refine ⟨?_,?_,throughout_concat.mpr ⟨hh.targeted,trivial⟩⟩
      · intro cr
        rw [creations_append,hno]
        simp only [creations,nil_append,filterMap_cons,filterMap_nil,
          mem_singleton,Option.some.injEq,exists_eq_left',Prod.ext_iff,eq_comm]
      · rw [builtImages_append,hh.built]
        exact append_nil _
  · intro container h hh
    exact ensures_holding ((hh.startCandidate rfl rfl accept).mono
      (fun fa h hf => ⟨hf.1.targeted,hf.2⟩) fun _ _ he => he)

end held

variable {more : DockerConversation}

theorem Provides.mono {op : Operation} {image : ImageId} (hp : Provides req op h image) :
    Provides req op (h++more) image := by
  cases op with
  | createPrepared prep => exact hp
  | create =>
    unfold Provides at hp ⊢
    cases hb : req.build with
    | image ref =>
      simp only [hb] at hp ⊢
      obtain ⟨insp,hm,hid⟩ := hp
      exact ⟨insp,mem_append_left _ hm,hid⟩
    | dockerfile p =>
      simp only [hb] at hp ⊢
      rw [builtImages_append]
      exact mem_append_left _ hp
    | compose =>
      simp only [hb] at hp

theorem verifyBuiltImage_eq_ok {image : ImageInspection} {claim : ImageId}
    {ident : DockerResourceIdentity} {u : Unit}
    (hv : verifyBuiltImage image claim ident = .ok u) : image.id = claim := by
  obtain ⟨_,hid,_⟩ := bind_eq_ok.mp hv
  exact beq_iff_eq.mp (require_eq_ok.mp hid)

theorem Held.obtainImage (hh : Held req host {} h) :
    Ensures (fun obtained h' => Held req host obtained.2 h' ∧ obtained.2.container = none ∧
        Provides req .create h' obtained.1.id)
      (fun e => Held req host e.1) (obtainImage req) h := by
  unfold ImageCreation.obtainImage
  cases hb : req.build with
  | image ref =>
    refine (ensures_holding (I := fun insp h' => Held req host {} h' ∧
      ⟨.inspectImage ref,.ok insp⟩ ∈ h') ?_).bind ?_
    · refine Ensures.bind (I := fun _ => Held req host {}) ?_ fun _ h hh => ?_
      · intro a
        have hn := hh.concat (e := ⟨.pull ref req.checkout,a⟩) trivial rfl rfl
        cases a with
        | ok u | error e => exact hn
      · refine hh.checkCancellation.bind fun _ h ⟨hh,_⟩ => ?_
        refine (hh.inspectImage _ _).mono ?_ fun _ _ he => he
        rintro insp _ ⟨hh,rfl⟩
        exact ⟨hh,mem_concat_self⟩
    · rintro insp h ⟨hh,hm⟩
      refine ⟨hh,rfl,?_⟩
      simp only [Provides,hb]
      exact ⟨insp,hm,rfl⟩
  | dockerfile p =>
    cases ht : req.buildTag with
    | none => exact hh
    | some tag =>
      refine Ensures.bind (I := fun cl => Held req host { generatedImage := some cl })
        (ensures_holding ?_) ?_
      · intro a
        cases a with
        | error e => exact hh.concat trivial rfl rfl
        | ok cl =>
          refine ⟨?_,?_,throughout_concat.mpr ⟨hh.targeted,trivial⟩⟩
          · intro cr
            rw [creations_append,mem_append,hh.created]
            simp [creations]
          · rw [builtImages_append,hh.built]
            rfl
      · intro cl h hh
        refine (ensures_holding (I := fun insp h' =>
          Held req host { generatedImage := some cl } h' ∧ insp.id = cl)
          ?_).bind ?_
        · refine hh.checkCancellation.bind fun _ h ⟨hh,_⟩ => ?_
          refine (hh.inspectImage _ _).bind fun insp h ⟨hh,_⟩ => ?_
          refine ensures_ofExcept_bind (fun _ hv => ?_) fun _ => hh
          exact ⟨hh,verifyBuiltImage_eq_ok hv⟩
        · rintro insp h ⟨hh,hid⟩
          refine ⟨hh,rfl,?_⟩
          simp only [Provides,hb,hh.built,hid]
          exact mem_singleton_self _
  | compose => exact hh

theorem RemovedContainer.mono {created : DockerCreateRequest × ContainerId}
    (hr : RemovedContainer req h created) :
    RemovedContainer req (h++more) created := by
  obtain ⟨bef,insp,image,aft,rfl,him,hv⟩ := hr
  exact ⟨bef,insp,image,aft++more,by simp,him,hv⟩

/-- A container is gone, or its failure is among those reported. -/
def ContainerSettled (request : ImageContainerCreateRequest) (h : DockerConversation)
    (created : DockerCreateRequest × ContainerId) (failures : List ImageCleanupFailure) : Prop :=
  RemovedContainer request h created ∨ ∃ source, .container source ∈ failures

def ImageSettled (identity : DockerResourceIdentity) (h : DockerConversation) (id : ImageId)
    (failures : List ImageCleanupFailure) : Prop :=
  RemovedImage identity h id ∨ ∃ source, .image source ∈ failures

section cleanup
variable {container : ContainerId} {image : ImageId}
variable (hh : Held req host owned h)
include hh

section candidate
variable (hco : owned.container = some container)
variable (him : owned.containerImage = some image)
include hco him

theorem Held.cleanupContainer : Holding req host owned
      (fun _ h' => RemovedContainer req h' (createRequest req host image, container))
      (cleanupContainer (expectation req container image none)) h := by
  refine (hh.inspectContainer container _).bind fun insp h' ⟨hh,hh'⟩ => ?_
  refine ensures_ofExcept_bind (fun _ hi => ?_) fun _ => hh
  have hv := verifyContainer_eq_ok.mp (mapError_eq_ok.mp hi)
  split_ifs with hr
  · exact hh
  · have hid : insp.id = container := hv.id
    have hm := hh.mem_creations hco him
    intro a
    have hn := hh.concat (e := ⟨.removeContainer insp.id,a⟩) ⟨_,hid ▸ hm⟩ rfl rfl
    cases a with
    | error e => exact hn
    | ok u =>
      refine ⟨hn,h,insp,image,[],?_,rfl,hv⟩
      rw [hh',hid]
      simp

theorem Held.cleanupCandidate : Ensures (fun fls h' => Held req host owned h' ∧
        ContainerSettled req h' (createRequest req host image, container) fls)
      (fun _ _ => False) (cleanupCandidate req container image) h := by
  refine Ensures.bind (I := fun _ => Held req host owned) (fun a => hh.concat trivial rfl rfl) ?_
  rintro (e | inspection) h hh
  · exact ⟨hh,.inr ⟨_,mem_singleton_self _⟩⟩
  · dsimp only
    split
    · exact ⟨hh,.inr ⟨_,mem_singleton_self _⟩⟩
    · refine Ensures.bind (I := fun _ => Held req host owned) ?_ fun sp h hh => ?_
      · unfold stopRunning
        split_ifs
        · exact fun a => hh.concat ⟨_,hh.mem_creations hco him⟩ rfl rfl
        · exact hh
      · refine Ensures.bind (I := fun removed h' => Held req host owned h' ∧
          ContainerSettled req h' (createRequest req host image, container)
            (containerFailure removed)) (ensures_attempt.mpr ?_) ?_
        · refine (hh.cleanupContainer hco him).mono ?_ ?_
          · rintro - h' ⟨hh,hr⟩
            exact ⟨hh,.inl hr⟩
          · intro e h' hh
            exact ⟨hh,.inr ⟨e,mem_singleton_self _⟩⟩
        · rintro removed h' ⟨hh,hs⟩
          exact ⟨hh,hs.imp_right fun ⟨src,hm⟩ => ⟨src,mem_append_right _ hm⟩⟩

end candidate

theorem Held.cleanupOwnedContainer : Ensures (fun fls h' => Held req host owned h' ∧
        ∀ cr ∈ creations h', ContainerSettled req h' cr fls)
      (fun _ _ => False) (cleanupOwnedContainer req owned) h := by
  unfold ImageCreation.cleanupOwnedContainer
  split
  · rename_i container image hco him
    refine (hh.cleanupCandidate hco him).mono ?_ fun _ _ he => he
    rintro fls h' ⟨hh,hs⟩
    refine ⟨hh,?_⟩
    rintro ⟨cr,id⟩ hc
    obtain ⟨image',himage',rfl,hid⟩ := (hh.created _).mp hc
    cases him.symm.trans himage'
    cases hco.symm.trans hid
    exact hs
  · rename_i hn
    refine ⟨hh,?_⟩
    rintro ⟨cr,id⟩ hc
    obtain ⟨image,him,-,hid⟩ := (hh.created _).mp hc
    exact (hn _ _ hid him).elim

theorem Held.mem_builtImages (him : owned.generatedImage = some image) {id : ImageId} :
    id ∈ builtImages h ↔ id = image := by
  rw [hh.built,him,Option.toList_some,mem_singleton]

theorem Held.cleanupImage (him : owned.generatedImage = some image) :
    Holding req host owned (fun _ h' => RemovedImage req.identity h' image)
      (cleanupImage image req.identity) h := by
  refine (hh.inspectImage image.value _).bind fun insp h' ⟨hh,hh'⟩ => ?_
  refine ensures_ofExcept_bind (fun _ hid => ?_) fun _ => hh
  refine ensures_ofExcept_bind (fun _ hl => ?_) fun _ => hh
  refine ensures_ofExcept_bind (fun _ hg => ?_) fun _ => hh
  have hid := (ImageId.ext (verifyValue_eq_ok.mp (mapError_eq_ok.mp hid))).symm
  intro a
  have hn := hh.concat (e := ⟨.removeImage insp.id,a⟩) ((hh.mem_builtImages him).mpr hid) rfl rfl
  cases a with
  | error e => exact hn
  | ok u =>
    refine ⟨hn,h,insp,[],?_,hid,verifyIdentity_eq_ok.mp (mapError_eq_ok.mp hl),
      verifyLabel_eq_ok.mp (mapError_eq_ok.mp hg)⟩
    rw [hh',hid]
    simp

theorem Held.cleanupOwnedImage : Ensures (fun fls h' => Held req host owned h' ∧
        ∀ id ∈ builtImages h', ImageSettled req.identity h' id fls)
      (fun _ _ => False) (cleanupOwnedImage req owned) h := by
  unfold ImageCreation.cleanupOwnedImage
  split
  · rename_i image him
    refine Ensures.bind (I := fun removed h' => Held req host owned h' ∧
      ImageSettled req.identity h' image (imageFailure removed)) (ensures_attempt.mpr ?_) ?_
    · refine (hh.cleanupImage him).mono ?_ ?_
      · rintro - h' ⟨hh,hr⟩
        exact ⟨hh,.inl hr⟩
      · intro e h' hh
        exact ⟨hh,.inr ⟨e,mem_singleton_self _⟩⟩
    · rintro removed h' ⟨hh,hs⟩
      exact ⟨hh,fun id hid => (hh.mem_builtImages him).mp hid ▸ hs⟩
  · rename_i hn
    exact ⟨hh,by simp [hh.built,hn]⟩

theorem Held.cleanup : Ensures (fun fls h' => Held req host owned h' ∧
        (∀ cr ∈ creations h', ContainerSettled req h' cr fls) ∧
        ∀ id ∈ builtImages h', ImageSettled req.identity h' id fls)
      (fun _ _ => False) (cleanup req owned) h := by
  refine hh.cleanupOwnedContainer.bind fun ctrs h' ⟨hh,hc⟩ => ?_
  refine hh.cleanupOwnedImage.extends.bind ?_
  rintro imgs h'' ⟨⟨hheld',hi⟩,more,rfl⟩
  refine ⟨hheld',?_,?_⟩
  · intro cr hcr
    have hb := (hh.created cr).mpr ((hheld'.created cr).mp hcr)
    exact (hc cr hb).imp RemovedContainer.mono fun ⟨src,hm⟩ => ⟨src,mem_append_left _ hm⟩
  · intro id hid
    exact (hi id hid).imp_right fun ⟨src,hm⟩ => ⟨src,mem_append_right _ hm⟩

end cleanup

/-- What a failure leaves: everything accounted for, and nothing else touched. -/
def Settled (request : ImageContainerCreateRequest) (error : ImageContainerError)
    (h : DockerConversation) : Prop :=
  Accounted request error h ∧ Throughout Targeted h

theorem Held.settled (hh : Held req host {} h) (er : ImageContainerError) : Settled req er h := by
  refine ⟨⟨?_,?_⟩,hh.targeted⟩
  · intro cr hc
    exact (hh.not_mem_creations rfl cr hc).elim
  · intro id hid
    simp [hh.built] at hid

theorem ensures_cleaningUp {m : Owning ImageContainerFacts}
    {I : ImageContainerFacts → DockerConversation → Prop}
    (hm : Ensures I (fun e => Held req host e.1) m h) :
    Ensures I (Settled req) (cleaningUp req m) h := by
  refine Ensures.bind (I := fun r h' => match r with
    | .ok facts => I facts h'
    | .error e => Held req host e.1 h') (ensures_attempt.mpr hm) ?_
  rintro (⟨owned,primary⟩ | facts) h' hr
  · refine (Held.cleanup hr |>.mono (fun _ _ hcl => hcl) fun _ _ hf => hf.elim).bind ?_
    rintro fls h'' ⟨hh,hc,hi⟩
    cases fls with
    | nil =>
      refine ⟨⟨?_,?_⟩,hh.targeted⟩
      · intro cr hcr
        exact .inl ((hc cr hcr).resolve_right (by simp))
      · intro id hid
        exact .inl ((hi id hid).resolve_right (by simp))
    | cons fl fls =>
      exact ⟨⟨hc,hi⟩,hh.targeted⟩
  · exact hr

theorem Held.discoverUnused (hh : Held req host {} h) :
    Ensures (fun _ => Held req host {}) (Settled req) (discoverUnused req) h := by
  refine (hh.checkCancellation.mono (fun _ _ hn => hn.1)
    fun e _ hn => hn.settled e).bind fun _ h hh => ?_
  refine Ensures.bind (I := fun _ => Held req host {}) ?_ fun ctrs h hh => ?_
  · intro a
    have hn := hh.concat
      (e := ⟨.discover req.identity.installation req.identity.workspace,a⟩) trivial rfl rfl
    cases a with
    | ok ctrs => exact hn
    | error e => exact hn.settled _
  · dsimp only
    split_ifs
    · exact hh
    · exact hh.settled _

theorem ensures_create : Ensures (fun fa h => Throughout Targeted h ∧ Confirmed req host fa h ∧
        Provides req .create h fa.image)
      (Settled req) (create req (.ok host)) [] := by
  have hno : Held req host {} [] := held_nil
  refine hno.discoverUnused.bind fun _ h hh => ?_
  refine ensures_cleaningUp (hh.obtainImage.bind fun obtained h' ho => ?_)
  obtain ⟨hh,hn,hp⟩ := ho
  refine (hh.createCandidate hn obtained.1.id _).extends.mono ?_ fun _ _ he => he
  rintro fa h'' ⟨⟨ht,hc,him⟩,more,rfl⟩
  exact ⟨ht,hc,him ▸ hp.mono⟩

theorem ensures_createPrepared {prep : PreparedImage} :
    Ensures (fun fa h => Throughout Targeted h ∧ Confirmed req host fa h ∧ fa.image = prep.image)
      (Settled req) (createPrepared req prep (.ok host)) [] := by
  have hno : Held req host {} [] := held_nil
  refine hno.discoverUnused.bind fun _ h hh => ?_
  refine ((hh.inspectImage _ _).mono (fun _ _ hn => hn.1)
    fun e _ hn => hn.settled e).bind fun insp h hh => ?_
  refine ensures_ofExcept_bind (fun _ _ => ?_) fun e => hh.settled e
  exact ensures_cleaningUp (hh.createCandidate rfl prep.image _)

theorem ensures_perform (op : Operation) (host : Except Text HostRequirementEvaluation) :
    Ensures (fun fa h => Throughout Targeted h ∧ Provides req op h fa.image ∧
        ∃ ev, host = .ok ev ∧ Confirmed req ev fa h)
      (Settled req) (perform req host op) [] := by
  cases host with
  | error e =>
    have hs : Settled req (.hostRequirement e) [] :=
      (held_nil : Held req ⟨.none,[]⟩ {} []).settled _
    cases op with
    | create | createPrepared prep => exact hs
  | ok host =>
    cases op with
    | create =>
      refine ensures_create.mono ?_ fun _ _ he => he
      rintro fa h ⟨ht,hc,hp⟩
      exact ⟨ht,hp,host,rfl,hc⟩
    | createPrepared prep =>
      refine ensures_createPrepared.mono ?_ fun _ _ he => he
      rintro fa h ⟨ht,hc,him⟩
      exact ⟨ht,him,host,rfl,hc⟩

/-- Every exit of both operations, whatever Docker answers and wherever cancellation is
seen. -/
theorem creation_accounted (request : ImageContainerCreateRequest)
    (host : Except Text HostRequirementEvaluation) (operation : Operation)
    (behaviour : DockerBehaviour) :
    (∀ error, (talk behaviour (perform request host operation) []).1 = .error error →
      Accounted request error (talk behaviour (perform request host operation) []).2) ∧
    (∀ facts, (talk behaviour (perform request host operation) []).1 = .ok facts →
      Provides request operation (talk behaviour (perform request host operation) []).2
        facts.image ∧
      ∃ evaluation, host = .ok evaluation ∧
        Confirmed request evaluation facts (talk behaviour (perform request host operation) []).2) ∧
    Throughout Targeted (talk behaviour (perform request host operation) []).2 := by
  refine Ensures.talk (P := fun r h =>
    (∀ error, r = .error error → Accounted request error h) ∧
    (∀ facts, r = .ok facts → Provides request operation h facts.image ∧
      ∃ evaluation, host = .ok evaluation ∧ Confirmed request evaluation facts h) ∧
    Throughout Targeted h) behaviour ((ensures_perform operation host).mono ?_ ?_)
  · rintro facts h ⟨ht,hr⟩
    exact ⟨nofun,fun _ hok => Except.ok.inj hok ▸ hr,ht⟩
  · rintro error h ⟨ha,ht⟩
    exact ⟨fun _ he => Except.error.inj he ▸ ha,nofun,ht⟩

end

end Cdenv.ImageCreation
