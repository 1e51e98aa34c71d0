import Cdenv.ComposeRebuild

/-!
# What a Compose replacement reports

Along every conversation with the adapter, recreation waits for the complete build, and the
commit for a healthy set, its readiness and the handoff of forwarding. An error after
recreation has begun carries evidence, and evidence should be what an inspection said.

A stage sums up a conversation that has not reached the commit: whether recreation began and
what the inspections answered. Most calls leave it as it is.
-/
namespace Cdenv.ComposeRebuild
open TextScan Identity Inspection WorkspaceRecord Interaction Program List
variable {P B E : Type}

abbrev RebuildConversation (P B E : Type) := Conversation (RuntimeAnswer (P := P) (B := B) E)

abbrev Runtime (P B E : Type) := Outside (RuntimeAnswer (P := P) (B := B) E)

/-- The answers of all inspections, in order. -/
def inspections (h : RebuildConversation P B E) : List (Except E (List ObservedComposeService)) :=
  h.filterMap fun
    | ⟨.inspectServices _,answer⟩ => some answer
    | _ => none

def isCommit : RuntimeCall P B → Bool
  | .commitActive .. => true
  | _ => false

def isRecreation : RuntimeCall P B → Bool
  | .forceRecreate .. => true
  | _ => false

section
variable (request : ComposeRebuildRequest P)

/-- What must have been answered before these services may become active. -/
structure Ready (before : RebuildConversation P B E) (active : ActiveGeneration)
    (managed : OrderedMap Text ContainerId) : Prop where
  healthy : ∃ observed, ⟨.inspectServices request.generation,.ok observed⟩ ∈ before ∧
    AllHealthy request.managedServices observed managed
  readiness : ∃ build,
    ⟨.completeReadiness request.desired build request.generation managed,.ok active⟩ ∈ before
  generation : active.generation = request.generation
  primary : managed.get? request.primaryService = some active.containerId
  handoff : ⟨.handoffForwarding active,.ok ()⟩ ∈ before

/-- The evidence is a failed inspection exactly if the last one failed, and otherwise what
some inspection of this rebuild returned. -/
def Substantiated (answers : List (Except E (List ObservedComposeService)))
    (evidence : ComposePartialEvidence E) : Prop :=
  (∀ source, evidence = .inspectionFailed source ↔ answers.getLast? = some (.error source)) ∧
  ∀ state, evidence = .inspected state → ∃ observed, .ok observed ∈ answers ∧
    state = classified request observed

def BuiltFirst (h : RebuildConversation P B E) : Prop :=
  Throughout (fun before e => ∀ desired build generation,
    e.1 = .forceRecreate desired build generation →
      ⟨.buildComplete request.desired request.generation request.noCache,.ok build⟩ ∈ before) h

structure Faithful (h : RebuildConversation P B E)
    (result : Except (RebuildStop E) (ComposeRebuildOutcome E)) : Prop where
  builtFirst : BuiltFirst request h
  committedOnce : h.countP (isCommit ·.1) ≤ 1
  committedReady : Throughout (fun before e => ∀ active managed,
    e.1 = .commitActive active managed → Ready request before active managed) h
  evident : h.any (isRecreation ·.1) = true → ∀ stop, result = .error stop →
    ∃ error phase evidence, stop = .error error ∧ error.evidence? = some (phase, evidence) ∧
      phase ≠ .buildFirst ∧ Substantiated request (inspections h) evidence

/-- A conversation before the commit. -/
structure Stage (recreated : Bool) (answers : List (Except E (List ObservedComposeService)))
    (h : RebuildConversation P B E) : Prop where
  builtFirst : BuiltFirst request h
  uncommitted : h.all (!isCommit ·.1) = true
  recreated : h.any (isRecreation ·.1) = recreated
  inspected : inspections h = answers

variable {req : ComposeRebuildRequest P} {recreated : Bool}
  {ans : List (Except E (List ObservedComposeService))}
variable {h : RebuildConversation P B E} {e : Event (RuntimeAnswer (P := P) (B := B) E)}

theorem stage_nil : Stage req false [] ([] : RebuildConversation P B E) :=
  ⟨throughout_nil,rfl,rfl,rfl⟩

section stage
variable (hstage : Stage req recreated ans h)
include hstage

theorem Stage.concat (hc : isCommit e.1 = false)
    (hb : ∀ desired build gen, e.1 = .forceRecreate desired build gen →
      ⟨.buildComplete req.desired req.generation req.noCache,.ok build⟩ ∈ h) :
    Stage req (recreated || isRecreation e.1) (ans++inspections [e]) (h++[e]) where
  builtFirst := throughout_concat.mpr ⟨hstage.builtFirst,hb⟩
  uncommitted := by simp [hstage.uncommitted,hc]
  recreated := by simp [hstage.recreated]
  inspected := by
    rw [← hstage.inspected]
    exact filterMap_append

theorem Stage.quiet (hc : isCommit e.1 = false := by rfl)
    (hr : isRecreation e.1 = false := by rfl) (hi : inspections [e] = [] := by rfl) :
    Stage req recreated ans (h++[e]) := by
  have hn := hstage.concat hc (fun _ _ _ he => by rw [he] at hr; cases hr)
  rwa [hr,hi,Bool.or_false,append_nil] at hn

theorem Stage.inspect (a : Except E (List ObservedComposeService)) :
    Stage req recreated (ans++[a]) (h++[⟨.inspectServices req.generation,a⟩]) := by
  have hn := hstage.concat (e := ⟨.inspectServices req.generation,a⟩) rfl nofun
  rw [show (recreated || isRecreation (.inspectServices req.generation : RuntimeCall P B)) =
    recreated from Bool.or_false _] at hn
  exact hn

theorem Stage.countP_isCommit : h.countP (isCommit ·.1) = 0 := by
  rw [countP_eq_zero]
  simpa using hstage.uncommitted

variable {result : Except (RebuildStop E) (ComposeRebuildOutcome E)}

/-- Before the commit only the evidence of an error is at stake. -/
theorem Stage.faithful (hev : recreated = true → ∀ stop, result = .error stop →
      ∃ error phase evd, stop = .error error ∧ error.evidence? = some (phase, evd) ∧
        phase ≠ .buildFirst ∧ Substantiated req ans evd) :
    Faithful req h result where
  builtFirst := hstage.builtFirst
  committedOnce := by
    have hn := hstage.countP_isCommit
    omega
  committedReady := by
    rintro bef e aft rfl active managed he
    have hu := all_eq_true.mp hstage.uncommitted e (by simp)
    rw [he] at hu
    cases hu
  evident := by
    rw [hstage.recreated,hstage.inspected]
    exact hev

end stage

variable {obs : List ObservedComposeService} {phase : ComposeRebuildPhase}

theorem substantiated_ok : Substantiated req (ans++[(.ok obs : Except E _)])
      (.inspected (classified req obs)) := by
  constructor
  · simp
  · rintro s ⟨⟩
    exact ⟨obs,by simp,rfl⟩

variable {error : ComposeRebuildError E}

theorem Stage.faithful_inspected (hstage : Stage req true (ans++[.ok obs]) h)
    (he : error.evidence? = some (phase, .inspected (classified req obs)))
    (hp : phase ≠ .buildFirst) : Faithful req h (.error (.error error)) := by
  apply hstage.faithful
  rintro - stop ⟨⟩
  exact ⟨error,phase,_,rfl,he,hp,substantiated_ok⟩

variable {F : RebuildStop E → RebuildConversation P B E → Prop}

/-- Evidence is asked for anew, and is what that inspection says. -/
theorem ensures_evidence (hstage : Stage req recreated ans h) :
    Ensures (fun evidence h => ∃ ans, Stage req recreated ans h ∧
      Substantiated req ans evidence) F (evidence req) h := by
  intro a
  have hn := hstage.inspect a
  cases a with
  | ok obs => exact ⟨_,hn,substantiated_ok⟩
  | error src => exact ⟨_,hn,by simp,nofun⟩

theorem ensures_stop {α : Type} {I : α → RebuildConversation P B E → Prop}
    {error : ComposePartialEvidence E → ComposeRebuildError E}
    (he : ∀ evidence, (error evidence).evidence? = some (phase, evidence))
    (hp : phase ≠ .buildFirst) (hstage : Stage req recreated ans h) :
    Ensures I (fun stop h => Faithful req h (.error stop))
      (do fail (.error (error (← evidence req)))) h := by
  refine (ensures_evidence hstage).bind ?_
  rintro evidence h ⟨ans,hstage,hev⟩
  apply hstage.faithful
  rintro - stop ⟨⟩
  exact ⟨_,phase,evidence,rfl,he evidence,hp,hev⟩

variable {I : Unit → RebuildConversation P B E → Prop}

theorem ensures_unlessCancelled {stop : Rebuild P B E Unit}
    (hs : Ensures I F stop (h++[⟨.isCancelled,true⟩])) (hgo : I () (h++[⟨.isCancelled,false⟩])) :
    Ensures I F (unlessCancelled stop) h := by
  intro a
  cases a with
  | false => exact hgo
  | true => exact hs

end

section phases
variable {req : ComposeRebuildRequest P}

def built (request : ComposeRebuildRequest P) (build : B) : RebuildConversation P B E :=
  [⟨.isCancelled,false⟩,
    ⟨.buildComplete request.desired request.generation request.noCache,.ok build⟩,
    ⟨.isCancelled,false⟩]

def recreated (request : ComposeRebuildRequest P) (build : B) : RebuildConversation P B E :=
  built request build++[⟨.forceRecreate request.desired build request.generation,.ok ()⟩] ++
    [⟨.isCancelled,false⟩]

variable {build : B}

theorem stage_built : Stage req false [] (built req build : RebuildConversation P B E) :=
  ((stage_nil.quiet (e := ⟨.isCancelled,false⟩)).quiet
    (e := ⟨.buildComplete req.desired req.generation req.noCache,.ok build⟩)).quiet
    (e := ⟨.isCancelled,false⟩)

variable {a : Except E Unit}

theorem stage_recreating : Stage req true []
      (built req build++[⟨.forceRecreate req.desired build req.generation,a⟩]) := by
  refine stage_built.concat (e := ⟨.forceRecreate req.desired build req.generation,a⟩) rfl ?_
  rintro desired build gen ⟨⟩
  simp [built]

theorem ensures_buildFirst :
    Ensures (fun build h => isValidRequest req = true ∧ h = built req build)
      (fun stop h => Faithful req h (.error stop))
      (buildFirst req : Rebuild P B E B) [] := by
  unfold buildFirst validateRequest
  split_ifs with hv
  · have hs : Stage req false [] ([] : RebuildConversation P B E) := stage_nil
    have hgo := hs.quiet (e := ⟨.isCancelled,false⟩)
    rw [ensures_bind,ensures_pure,ensures_bind]
    refine ensures_unlessCancelled (hs.quiet.faithful nofun) ?_
    rw [ensures_bind]
    refine ensures_expect fun a => ⟨?_,?_⟩
    · rintro build rfl
      rw [ensures_bind]
      have hb := hgo.quiet (e := ⟨.buildComplete req.desired req.generation req.noCache,.ok build⟩)
      exact ensures_unlessCancelled (hb.quiet.faithful nofun) ⟨hv,rfl⟩
    · rintro src rfl
      exact hgo.quiet.faithful nofun
  · exact stage_nil.faithful nofun

theorem ensures_recreate : Ensures (fun _ h => h = recreated req build)
      (fun stop h => Faithful req h (.error stop))
      (recreate req build : Rebuild P B E Unit) (built req build) := by
  intro a
  have hstage : Stage req true [] (built req build ++
    [⟨.forceRecreate req.desired build req.generation,a⟩]) := stage_recreating
  cases a with
  | error src => exact ensures_stop (fun _ => rfl) nofun hstage
  | ok =>
    exact ensures_unlessCancelled (ensures_stop (fun _ => rfl) nofun hstage.quiet) rfl

/-- What has been established when the desired services were found healthy. -/
structure Discovered (request : ComposeRebuildRequest P) (seen : ComposePartialState)
    (managed : OrderedMap Text ContainerId) (primary : ContainerId)
    (h : RebuildConversation P B E) : Prop where
  stage : ∃ observed, Stage request true [.ok observed] h ∧ seen = classified request observed ∧
    ⟨.inspectServices request.generation,.ok observed⟩ ∈ h ∧
    AllHealthy request.managedServices observed managed
  primary : managed.get? request.primaryService = some primary

theorem mem_managedServices (h : isValidRequest req = true) :
    req.primaryService ∈ req.managedServices := by
  unfold isValidRequest ComposeLifecycle.isManagedSet at h
  simp only [Bool.not_eq_true',Bool.or_eq_false_iff,Bool.not_eq_false',any_eq_true, beq_iff_eq] at h
  obtain ⟨⟨-,svc,hs,rfl⟩,-⟩ := h
  exact hs

/-- The inspection may be the one that fails; the others are sound. -/
theorem ensures_discover (hv : isValidRequest req = true) :
    Ensures (fun fs h => Discovered req fs.1 fs.2.1 fs.2.2 h)
      (fun stop h => Faithful req h (.error stop) ∨ ∃ src,
        h = recreated req build++[⟨.inspectServices req.generation,.error src⟩])
      (discover req : Rebuild P B E _) (recreated req build) := by
  unfold discover
  have hstage : Stage req true [] (recreated req build : RebuildConversation P B E) :=
    stage_recreating.quiet
  rw [ensures_bind]
  refine ensures_expect fun a => ⟨?_,?_⟩
  · rintro obs rfl
    have hs := hstage.inspect (.ok obs)
    dsimp only
    cases hm : (classified req obs).healthyManagedSet with
    | none => exact .inl (hs.faithful_inspected rfl nofun)
    | some managed =>
      have hh := allHealthy_of_healthyManagedSet hm
      dsimp only
      obtain ⟨fs,-,-,-,hp⟩ := hh _ (mem_managedServices hv)
      rw [hp]
      dsimp only
      split_ifs
      · exact .inl (hs.faithful_inspected rfl nofun)
      · rw [ensures_bind]
        refine ensures_unlessCancelled (.inl (hs.quiet.faithful_inspected rfl nofun)) ⟨?_,hp⟩
        exact ⟨obs,hs.quiet,rfl,by simp,hh⟩
  · rintro src rfl
    exact .inr ⟨src,rfl⟩

variable {seen : ComposePartialState} {managed : OrderedMap Text ContainerId}
variable {prim : ContainerId} {phase : ComposeRebuildPhase} {build : B}
variable {active : ActiveGeneration} {h : RebuildConversation P B E}
variable {e : Event (RuntimeAnswer (P := P) (B := B) E)}

/-- The generation that readiness returned for these services. -/
def MadeReady (request : ComposeRebuildRequest P) (managed : OrderedMap Text ContainerId)
    (primary : ContainerId) (active : ActiveGeneration) (h : RebuildConversation P B E) : Prop :=
  active.generation = request.generation ∧ active.containerId = primary ∧ ∃ build,
    ⟨.completeReadiness request.desired build request.generation managed,.ok active⟩ ∈ h

section discovered
variable (hfo : Discovered req seen managed prim h)
include hfo

theorem Discovered.quiet (hc : isCommit e.1 = false := by rfl)
    (hr : isRecreation e.1 = false := by rfl) (hi : inspections [e] = [] := by rfl) :
    Discovered req seen managed prim (h++[e]) := by
  obtain ⟨⟨obs,hstage,hs,hm,hh⟩,hp⟩ := hfo
  exact ⟨⟨obs,hstage.quiet hc hr hi,hs,mem_append_left _ hm,hh⟩,hp⟩

/-- From then on an error may repeat what was seen. -/
theorem Discovered.faithful (he : error.evidence? = some (phase, .inspected seen))
    (hp : phase ≠ .buildFirst) : Faithful req h (.error (.error error)) := by
  obtain ⟨⟨obs,hstage,rfl,-,-⟩,-⟩ := hfo
  have hs : Stage req true ([]++[.ok obs]) h := hstage
  exact hs.faithful_inspected he hp

theorem Discovered.ensures_cancelled (hp : phase ≠ .buildFirst)
    (hgo : I () (h++[⟨.isCancelled,false⟩])) :
    Ensures I (fun stop h => Faithful req h (.error stop))
      (unlessCancelled (cancelled req phase)) h := by
  obtain ⟨⟨obs,hstage,-,-,-⟩,-⟩ := hfo
  exact ensures_unlessCancelled (ensures_stop (fun _ => rfl) hp hstage.quiet) hgo

theorem ensures_makeReady : Ensures (fun active h => Discovered req seen managed prim h ∧
        MadeReady req managed prim active h)
      (fun stop h => Faithful req h (.error stop))
      (makeReady req build seen managed prim) h := by
  unfold makeReady
  rw [ensures_bind]
  refine ensures_expect fun a => ⟨?_,?_⟩
  · rintro active rfl
    have hr := hfo.quiet (e := ⟨.completeReadiness req.desired build req.generation
      managed,.ok active⟩)
    split_ifs with hd
    · exact hr.faithful rfl nofun
    · obtain ⟨hg,hp⟩ := not_or.mp hd
      rw [ensures_bind]
      refine hr.ensures_cancelled nofun ⟨hr.quiet,not_not.mp hg,not_not.mp hp,build,?_⟩
      simp
  · rintro src rfl
    exact hfo.quiet.faithful rfl nofun

theorem ensures_handOver (hr : MadeReady req managed prim active h) :
    Ensures (fun _ h => Discovered req seen managed prim h ∧
        MadeReady req managed prim active h ∧ ⟨.handoffForwarding active,.ok ()⟩ ∈ h)
      (fun stop h => Faithful req h (.error stop)) (handOver req active seen) h := by
  unfold handOver
  rw [ensures_bind]
  refine ensures_expect fun a => ⟨?_,?_⟩
  · rintro ⟨⟩ rfl
    have hh := hfo.quiet (e := ⟨.handoffForwarding active,.ok ()⟩)
    obtain ⟨hg,hp,build,hm⟩ := hr
    refine hh.ensures_cancelled nofun ⟨hh.quiet,⟨hg,hp,build,?_⟩,?_⟩
    · simp [hm]
    · simp
  · rintro src rfl
    exact hfo.quiet.faithful rfl nofun

/-- The commit is the only one, and everything it needs came before. -/
theorem faithful_commit (hr : MadeReady req managed prim active h)
    (hh : ⟨.handoffForwarding active,.ok ()⟩ ∈ h)
    (hre : ∀ stop, result = .error stop → ∃ error phase, stop = .error error ∧
      error.evidence? = some (phase, .inspected seen) ∧ phase ≠ .buildFirst) :
    Faithful req (h++[⟨.commitActive active managed,a⟩]) result := by
  obtain ⟨⟨obs,hstage,rfl,hi,hhe⟩,hpr⟩ := hfo
  obtain ⟨hg,hc,hbu⟩ := hr
  have hse : Substantiated req ([]++[(.ok obs : Except E _)])
    (.inspected (classified req obs)) := substantiated_ok
  have hb : Faithful req h result := by
    apply hstage.faithful
    intro _ stop hst
    obtain ⟨error,phase,hs,he,hp⟩ := hre stop hst
    exact ⟨error,phase,_,hs,he,hp,hse⟩
  constructor
  · exact throughout_concat.mpr ⟨hstage.builtFirst,nofun⟩
  · rw [countP_append,hstage.countP_isCommit]
    exact Nat.le_refl 1
  · refine throughout_concat.mpr ⟨hb.committedReady,?_⟩
    rintro active managed ⟨⟩
    exact ⟨⟨obs,hi,hhe⟩,hbu,hg,hc ▸ hpr,hh⟩
  · have hin : inspections (h++[⟨.commitActive active managed,a⟩]) = inspections h := by
      simp [inspections]
    rw [hin]
    intro _
    exact hb.evident hstage.recreated

end discovered

theorem Faithful.quiet {out : ComposeRebuildOutcome E}
    (hf : Faithful req h (.ok out)) (hc : isCommit e.1 = false)
    (hr : isRecreation e.1 = false) : Faithful req (h++[e]) (.ok out) where
  builtFirst := by
    refine throughout_concat.mpr ⟨hf.builtFirst,?_⟩
    intro desired build gen he
    rw [he] at hr
    cases hr
  committedOnce := by
    rw [countP_append,countP_singleton,hc]
    exact hf.committedOnce
  committedReady := by
    refine throughout_concat.mpr ⟨hf.committedReady,?_⟩
    intro active managed he
    rw [he] at hc
    cases hc
  evident := nofun

def blind (request : ComposeRebuildRequest P) (build : B) (source : E) :
    RebuildConversation P B E :=
  recreated request build++[⟨.inspectServices request.generation,.error source⟩]

def Blinded (request : ComposeRebuildRequest P) (h : RebuildConversation P B E) : Prop :=
  isValidRequest request = true ∧ ∃ build source, h = blind request build source

theorem ensures_rebuild (req : ComposeRebuildRequest P) :
    Ensures (fun out h => Faithful req h (.ok out))
      (fun stop h => Faithful req h (.error stop) ∨ Blinded req h)
      (rebuild req : Rebuild P B E _) [] := by
  refine (ensures_buildFirst.mono (fun _ _ h => h) (fun _ _ h => .inl h)).bind ?_
  rintro build h ⟨hv,rfl⟩
  refine (ensures_recreate.mono (fun _ _ h => h) (fun _ _ h => .inl h)).bind ?_
  rintro - h rfl
  refine ((ensures_discover hv).mono (fun _ _ h => h) (fun stop h hs => hs.imp_right
    fun ⟨src,hh⟩ => ⟨hv,build,src,hh⟩)).bind ?_
  rintro ⟨seen,managed,prim⟩ h hfo
  refine ((ensures_makeReady hfo).mono (fun _ _ h => h) (fun _ _ h => .inl h)).bind ?_
  rintro active h ⟨hfo,hr⟩
  refine ((ensures_handOver hfo hr).mono (fun _ _ h => h) (fun _ _ h => .inl h)).bind ?_
  rintro - h ⟨hfo,hr,hha⟩
  rw [ensures_bind]
  refine ensures_expect fun a => ⟨?_,?_⟩
  · rintro ⟨⟩ rfl orphans imgs
    have hc : Faithful req (h++[⟨.commitActive active managed,.ok ()⟩])
      (.ok ⟨active,managed,cleanupWarning .orphans orphans ++
        cleanupWarning .generatedImages imgs⟩) := faithful_commit hfo hr hha nofun
    exact (hc.quiet rfl rfl).quiet rfl rfl
  · rintro src rfl
    refine .inl (faithful_commit hfo hr hha ?_)
    rintro stop ⟨⟩
    exact ⟨_,.activeCommit,rfl,rfl,nofun⟩

/-- The adapter answers so up to an inspection that fails right after the recreation. -/
def LosesSight (request : ComposeRebuildRequest P) (runtime : Runtime P B E) : Prop :=
  isValidRequest request = true ∧ ∃ build source, Answers runtime (blind request build source)

theorem talk_blind {rt : Runtime P B E} {src : E} (hv : isValidRequest req = true)
    (ha : Answers rt (blind req build src)) :
    talk rt (rebuild req) [] = (.error (.error (.partialFailure .managedSet src
      (.inspected (classified req [])))), blind req build src) := by
  have hr : Runs (rebuild req) (blind req build src) (.error (.error
      (.partialFailure .managedSet src (.inspected (classified req []))))) := by
    unfold rebuild buildFirst validateRequest
    rw [if_pos hv]
    exact .ask (.ask (.ask (.ask (.ask (.ask (.done _))))))
  exact hr.talk ha

/-- No inspection returned anything, yet the error shows services as inspected. -/
theorem not_faithful_blind {build : B} {src : E} {s : ComposePartialState} :
    ¬Faithful req (blind req build src)
      (.error (.error (.partialFailure .managedSet src (.inspected s)))) := by
  intro hf
  obtain ⟨error,phase,evd,hs,he,-,hsu⟩ := hf.evident rfl _ rfl
  cases hs
  cases he
  obtain ⟨obs,ho,-⟩ := hsu.2 s rfl
  have hi : inspections (blind req build src) = [.error src] := rfl
  rw [hi] at ho
  simp at ho

/-- Recreation waits for the build and the commit for health, readiness and handoff,
whatever the adapter answers. The evidence is real unless the inspection that should have
found the recreated services failed: the error then shows every service as missing. -/
theorem faithful_rebuild_iff (request : ComposeRebuildRequest P) (runtime : Runtime P B E) :
    Faithful request (talk runtime (rebuild request) []).2 (talk runtime (rebuild request) []).1 ↔
      ¬LosesSight request runtime := by
  constructor
  · rintro hf ⟨hv,build,src,ha⟩
    rw [talk_blind hv ha] at hf
    exact not_faithful_blind hf
  · intro hs
    have ha : Answers runtime (talk runtime (rebuild request) []).2 := answers_talk throughout_nil
    have hal : Ensures (fun out h => Faithful request h (.ok out) ∨ Blinded request h)
        (fun stop h => Faithful request h (.error stop) ∨ Blinded request h)
        (rebuild request : Rebuild P B E _) [] :=
      (ensures_rebuild request).mono (fun _ _ h => .inl h) (fun _ _ h => h)
    rcases hal.talk runtime (P := fun result h => Faithful request h result ∨ Blinded request h)
      with hf | ⟨hv,build,src,hb⟩
    · exact hf
    · rw [hb] at ha
      exact absurd ⟨hv,build,src,ha⟩ hs

end phases

def sampleRequest : ComposeRebuildRequest Unit where
  desired := ()
  managedServices := ["app"]
  primaryService := "app"
  generation := .first
  previousPrimary := none
  noCache := false

def unseeing : Runtime Unit Unit Unit := fun _ question =>
  match question with
  | .isCancelled => false
  | .buildComplete .. => .ok ()
  | .forceRecreate .. => .ok ()
  | .inspectServices _ => .error ()
  | .completeReadiness .. => .error ()
  | .handoffForwarding _ => .ok ()
  | .commitActive .. => .ok ()
  | .removeOrphans _ => .ok ()
  | .cleanupGeneratedImages => .ok ()

theorem missing_without_inspection :
    (talk unseeing (rebuild sampleRequest) []).1 = .error (.error (.partialFailure .managedSet ()
      (.inspected ⟨.first,.ofList [("app", .missing)]⟩))) ∧
    inspections (talk unseeing (rebuild sampleRequest) []).2 = [.error ()] ∧
    ¬Faithful sampleRequest (talk unseeing (rebuild sampleRequest) []).2
      (talk unseeing (rebuild sampleRequest) []).1 := by
  refine ⟨rfl,rfl,?_⟩
  exact @not_faithful_blind Unit Unit Unit sampleRequest () () _

end Cdenv.ComposeRebuild
