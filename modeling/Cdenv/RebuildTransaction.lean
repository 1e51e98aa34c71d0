import Cdenv.WorkspaceRebuild

/-!
# What a rebuild leaves behind

The steps are taken in order up to the first that fails; a failure after the build is
rolled back once and a committed rebuild never; cleanup follows the commit. A failed
rebuild leaves the active generation as it was, with one exception. A commit can be
reported as failed after it has replaced the file, and when the failure then cannot be
recorded over it, the file names a candidate that was rolled back.
-/
namespace Cdenv.WorkspaceRebuild
open TextScan Fallible Identity Inspection WorkspaceRecord StepLog List Steps

def backupSteps (previous : Option ActiveGeneration) : List RebuildStep :=
  match previous with
  | some _ => [.backup]
  | none => []

def laterSteps (previous : Option ActiveGeneration) : List RebuildStep :=
  [.quiesce]++(backupSteps previous++[.create,.check,.handoff])++[.commit]

def RebuildStep.isLater : RebuildStep → Bool
  | .build | .rollback | .cleanup => false
  | _ => true

def RebuildStep.isForward : RebuildStep → Bool
  | .rollback | .cleanup => false
  | _ => true

variable {previous : Option ActiveGeneration} {step : RebuildStep}

theorem isLater_of_mem (h : step ∈ laterSteps previous) : step.isLater = true := by
  cases previous with
  | none =>
    revert step
    decide
  | some old =>
    change step ∈ [RebuildStep.quiesce,.backup,.create,.check,.handoff,.commit] at h
    revert step
    decide

theorem RebuildStep.isForward_of_isLater (h : step.isLater = true) : step.isForward = true := by
  cases step <;> first | rfl | cases h

/-- The steps of a log are in order, every failed step after the build is rolled back
once, nothing that was committed is rolled back, and cleanup follows the commit. -/
structure Ordered (previous : Option ActiveGeneration) (log : List (RebuildStep × Bool)) :
    Prop where
  order : (log.map Prod.fst).filter RebuildStep.isForward <+: .build::laterSteps previous
  rollback : log.countP (fun entry => entry.1 == .rollback) =
    if log.any (fun entry => entry.1.isLater && !entry.2) then 1 else 0
  committed : (.commit, true) ∈ log → ∀ ok, (.rollback, ok) ∉ log
  cleanup : ∀ before ok after, log = before++(.cleanup, ok)::after → (.commit, true) ∈ before

section logs
variable {previous : Option ActiveGeneration}

theorem ordered_nil : Ordered previous [] := by
  refine ⟨List.nil_prefix,rfl,?_,?_⟩
  · exact nofun
  · intro bef ok aft h
    cases bef <;> cases h

theorem ordered_unbuilt : Ordered previous [(.build, false)] := by
  refine ⟨⟨laterSteps previous,rfl⟩,rfl,?_,?_⟩
  · intro h
    rcases mem_singleton.mp h with h
    cases h
  · intro bef ok aft h
    cases bef with
    | nil => cases h
    | cons fst xs =>
      obtain ⟨-,hr⟩ := cons.inj h
      cases xs <;> cases hr

/-- Successful steps after the build, as they stand in a log. -/
def done (steps : List RebuildStep) : List (RebuildStep × Bool) := steps.map fun step => (step, true)

theorem map_fst_done (steps : List RebuildStep) : (done steps).map Prod.fst = steps := by
  unfold done
  rw [map_map]
  exact map_id steps

variable {steps : List RebuildStep}

theorem mem_done {ok : Bool} : (step, ok) ∈ done steps ↔ step ∈ steps ∧ ok = true := by
  unfold done
  rw [mem_map]
  constructor
  · rintro ⟨step',hm,heq⟩
    cases heq
    exact ⟨hm,rfl⟩
  · rintro ⟨hm,rfl⟩
    exact ⟨step,hm,rfl⟩

/-- A log whose last entry alone is no step forward. -/
theorem ordered_concat {log : List (RebuildStep × Bool)} {last : RebuildStep} {ok : Bool}
    (hlo : ∀ entry ∈ log, entry.1.isForward = true) (hl : last.isForward = false)
    (ho : log.map Prod.fst <+: .build::laterSteps previous)
    (hro : last = .rollback ↔ ∃ entry ∈ log, entry.1.isLater = true ∧ entry.2 = false)
    (hcl : last = .cleanup ↔ (.commit, true) ∈ log) : Ordered previous (log++[(last, ok)]) := by
  have ha : ∀ step ok, step.isForward = false → (step, ok) ∉ log := by
    intro step ok hs hm
    cases hs.symm.trans (hlo _ hm)
  refine ⟨?_,?_,?_,?_⟩
  · have hse : (log.map Prod.fst).filter RebuildStep.isForward = log.map Prod.fst := by
      rw [filter_eq_self]
      exact forall_mem_map.mpr hlo
    rw [map_append,filter_append,hse,map_singleton,filter_singleton,hl]
    simpa using ho
  · have hco : log.countP (fun entry => entry.1 == .rollback) = 0 := by
      rw [countP_eq_zero]
      rintro ⟨step,ok⟩ he hs
      cases eq_of_beq hs
      exact ha _ ok rfl he
    have han : (log++[(last, ok)]).any (fun entry => entry.1.isLater && !entry.2) =
        decide (last = .rollback) := by
      have hn : last.isLater = false := by cases last <;> first | rfl | cases hl
      rw [Bool.eq_iff_iff,decide_eq_true_iff,hro]
      simp [hn]
    rw [han,countP_append,hco]
    by_cases h : last = .rollback <;> simp [h]
  · intro hc rolled hr
    simp only [mem_append,mem_singleton,Prod.mk.injEq] at hc hr
    rcases hc with hc | ⟨rfl,-⟩
    · rcases hr with hr | ⟨rfl,-⟩
      · exact ha _ _ rfl hr
      · cases hcl.mpr hc
    · cases hl
  · intro before cleaned after heq
    rcases eq_nil_or_concat after with rfl | ⟨xs,entry,rfl⟩
    · obtain ⟨rfl,he⟩ := append_inj' heq rfl
      cases he
      exact hcl.mp rfl
    · rw [concat_eq_append,← cons_append,← append_assoc] at heq
      obtain ⟨rfl,-⟩ := append_inj' heq rfl
      exact absurd (mem_append_right _ mem_cons_self) (ha .cleanup cleaned rfl)

variable {xs : List RebuildStep} {failed : RebuildStep}

theorem commit_notMem (h : laterSteps previous = steps++failed::xs) :
    RebuildStep.commit ∉ steps := by
  intro hm
  have hl : [RebuildStep.quiesce]++(backupSteps previous++[.create,.check,.handoff]) =
      steps++(failed::xs).dropLast := by
    have hd := congrArg dropLast h
    rw [laterSteps,dropLast_concat,dropLast_append_of_ne_nil (cons_ne_nil failed xs)] at hd
    exact hd
  have hc := mem_append_left (failed::xs).dropLast hm
  rw [← hl] at hc
  cases previous with
  | none => revert hc; decide
  | some old =>
    change RebuildStep.commit ∈ [RebuildStep.quiesce,.backup,.create,.check,.handoff] at hc
    revert hc
    decide

theorem ordered_failed (ok : Bool) (h : laterSteps previous = steps++failed::xs) :
    Ordered previous ((.build, true)::(done steps++[(failed, false)])++[(.rollback, ok)]) := by
  have hl : ∀ step ∈ steps++[failed], step.isLater = true := by
    intro step hs
    apply isLater_of_mem
    rw [h,← singleton_append,← append_assoc]
    exact mem_append_left _ hs
  have hf := hl failed (by simp)
  apply ordered_concat
  · simp only [forall_mem_cons,forall_mem_append,Prod.forall,mem_done]
    refine ⟨rfl,fun step _ hm => ?_,RebuildStep.isForward_of_isLater hf,nofun⟩
    exact RebuildStep.isForward_of_isLater (hl step (mem_append_left _ hm.1))
  · rfl
  · rw [h]
    exact ⟨xs,by simp [map_fst_done]⟩
  · exact iff_of_true rfl ⟨(failed, false),by simp,hf,rfl⟩
  · refine iff_of_false nofun ?_
    simpa [mem_done] using commit_notMem h

theorem ordered_committed (ok : Bool) :
    Ordered previous ((.build, true)::done (laterSteps previous)++[(.cleanup, ok)]) := by
  apply ordered_concat
  · simp only [forall_mem_cons,Prod.forall,mem_done]
    exact ⟨rfl,fun step _ hm => RebuildStep.isForward_of_isLater (isLater_of_mem hm.1)⟩
  · rfl
  · rw [map_cons,map_fst_done]
  · refine iff_of_false nofun ?_
    rintro ⟨⟨step,ok⟩,hm,hs,rfl⟩
    rcases mem_cons.mp hm with hm | hm
    · cases hm
    · cases (mem_done.mp hm).2
  · refine iff_of_true rfl (mem_cons_of_mem _ (mem_done.mpr ⟨?_,rfl⟩))
    exact mem_append_right _ mem_cons_self

/-- However a failure is rolled back, if there is something to roll back, the log is in
order. -/
def Fallen {Build Error : Type} (previous : Option ActiveGeneration)
    (failure : Failure Build Error) (log : List (RebuildStep × Bool)) : Prop :=
  ∀ ok, Ordered previous (log++if failure.owned.isSome then [(.rollback, ok)] else [])

theorem fallen_of_owned {Build Error : Type} {fl : Failure Build Error}
    (steps : List RebuildStep) (h : laterSteps previous = steps++failed::xs)
    (ho : fl.owned.isSome = true) :
    Fallen previous fl ((.build, true)::(done steps++[(failed, false)])) := by
  intro ok
  rw [ho]
  exact ordered_failed ok h

end logs

section steps
variable {σ Plan Build PlanError PreflightError StatusError Error : Type}
variable {req : RebuildRequest} {environment : RebuildEnvironment σ Plan Build Error}
variable {ads : Adapters σ Plan Build PlanError PreflightError StatusError Error}
variable {host : Host} {plan : Preparation Plan} {m s t : Machine σ} {build : Build}
variable {candidate : ActiveGeneration} {log : List (RebuildStep × Bool)}

/-- Nothing before the commit writes the state file, and a failure there has an owner. -/
theorem ensures_makeReady : Steps.Ensures
    (fun _ t log => Machine.SameFile s t ∧ log = (.build, true)::done ([.quiesce] ++
      (backupSteps plan.previous++[.create,.check,.handoff])))
    (fun fl t log => Machine.SameFile s t ∧ Fallen plan.previous fl log)
    (makeReady req environment plan build) s [(.build, true)] := by
  unfold makeReady backupPrevious
  cases plan.previous
  all_goals simp only [ensures_bind]
  case none =>
    refine ensures_attempt (fun _ _ => ⟨rfl,fallen_of_owned [] rfl rfl⟩) fun _ _ => ?_
    apply ensures_pure
    refine ensures_attempt (fun _ _ => ⟨rfl,fallen_of_owned [.quiesce] rfl rfl⟩) fun _ _ => ?_
    refine ensures_attempt
      (fun _ _ => ⟨rfl,fallen_of_owned [.quiesce,.create] rfl rfl⟩) fun _ _ => ?_
    refine ensures_attempt
      (fun _ _ => ⟨rfl,fallen_of_owned [.quiesce,.create,.check] rfl rfl⟩) fun _ _ => ?_
    exact ensures_pure ⟨rfl,rfl⟩
  case some old =>
    refine ensures_attempt (fun _ _ => ⟨rfl,fallen_of_owned [] rfl rfl⟩) fun _ _ => ?_
    refine ensures_attempt (fun _ _ => ⟨rfl,fallen_of_owned [.quiesce] rfl rfl⟩) fun _ _ => ?_
    refine ensures_attempt
      (fun _ _ => ⟨rfl,fallen_of_owned [.quiesce,.backup] rfl rfl⟩) fun _ _ => ?_
    refine ensures_attempt
      (fun _ _ => ⟨rfl,fallen_of_owned [.quiesce,.backup,.create] rfl rfl⟩) fun _ _ => ?_
    refine ensures_attempt
      (fun _ _ => ⟨rfl,fallen_of_owned [.quiesce,.backup,.create,.check] rfl rfl⟩) fun _ _ => ?_
    exact ensures_pure ⟨rfl,rfl⟩

theorem respects_planRebuild : Steps.Respects Machine.SameFile (planRebuild req ads host) := by
  repeat refine Steps.Respects.bind Machine.SameFile.trans (fun _ => rfl) fun _ => ?_
  exact fun _ => rfl

theorem silent_planRebuild : Steps.Silent (planRebuild req ads host) := by
  repeat refine Steps.Silent.bind (fun _ => rfl) fun _ => ?_
  exact fun _ => rfl

/-- A plan starts from what the file says. -/
structure Starts (machine : Machine σ) (plan : Preparation Plan) : Prop where
  previous : plan.previous = machine.active
  state : plan.state.active = machine.active
  generation : nextGeneration plan.previous = .ok plan.generation

theorem starts_of_planRebuild (h : Steps.Yields (planRebuild req ads host) m plan t) :
    Starts m plan := by
  unfold planRebuild at h
  simp only [yields_bind,yields_call,Machine.loadWorkspaceState_eq_ok,
    yields_pure,Prod.mk.injEq] at h
  obtain ⟨-,ch,⟨-,hc⟩,-,locked,⟨-,hl⟩,st,loaded,⟨-,hf,-⟩,-,-,-,-,-,-,-,-,-,gen,-,⟨hg,-⟩,rfl,-⟩ := h
  subst hc hl
  have ha : m.active = st.active := by
    unfold Machine.active
    rw [hf]
    rfl
  exact ⟨ha.symm,ha.symm,hg⟩

/-- Whatever comes of the preparation, the active generation stays and nothing is logged. -/
theorem ensures_prepareRebuild (m : Machine σ) : Steps.Ensures
    (fun plan t log => Starts m plan ∧ t.active = m.active ∧ log = [])
    (fun _ t log => t.active = m.active ∧ log = [])
    (prepareRebuild req ads host) m [] := by
  have hpl : Steps.Ensures (fun plan t log => Steps.Yields (planRebuild req ads host)
      m plan t ∧ log = []) (fun _ t log => t.active = m.active ∧ log = [])
      (planRebuild req ads host) m [] := by
    unfold Steps.Ensures
    cases hr : (planRebuild req ads host m).result with
    | ok plan => exact ⟨⟨hr,rfl⟩,silent_planRebuild m⟩
    | error e => exact ⟨(respects_planRebuild m).active,silent_planRebuild m⟩
  unfold prepareRebuild
  rw [ensures_bind]
  refine hpl.mono ?_ fun _ _ _ h => h
  rintro plan t _ - ⟨hp,rfl⟩
  have hs := starts_of_planRebuild hp
  have hac := hp.2 ▸ (respects_planRebuild m).active
  have ha : (t.persistWorkspaceState plan.state host.intent).2.active = m.active :=
    Machine.active_persistWorkspaceState hs.state hac
  rw [ensures_bind]
  exact ensures_call (fun _ _ => ⟨ha,rfl⟩) fun _ _ => ensures_pure ⟨hs,ha,rfl⟩

variable {fl : Failure Build Error}

/-- A failure is recorded over the announced record, if the write takes effect. -/
def recordedActive (host : Host) (plan : Preparation Plan) (t : Machine σ) :
    Option ActiveGeneration :=
  if AtomicWrite.takesEffect host.record then plan.state.active else t.active

theorem ensures_recordFailure {α : Type} (op : OperationState) (summary : Text)
    (rollback : Option Error) : Steps.Ensures (fun _ _ _ => False)
      (fun _ u log' => u.active = recordedActive host plan t ∧ log' = log)
      (recordFailure ads host plan op summary fl rollback : ads.Rebuilding α)
      t log := by
  have ha : (Machine.persistWorkspaceState ((plan.state.setOperation op).setLastError
      (some (.redact summary))) host.record t).2.active = recordedActive host plan t := by
    unfold Machine.active recordedActive
    rw [Machine.file_persistWorkspaceState]
    split_ifs <;> rfl
  unfold recordFailure
  rw [ensures_bind]
  apply ensures_query
  split <;> exact ensures_fail ⟨ha,rfl⟩

/-- The recovery rolls back exactly what is owned. -/
theorem ensures_recover {α : Type} (hg : nextGeneration plan.previous = .ok plan.generation) :
    Steps.Ensures (fun _ _ _ => False) (fun _ u log' => u.active = recordedActive host plan t ∧
        ∃ ok, log' = log++if fl.owned.isSome then [(.rollback, ok)] else [])
      (recover req ads host plan fl : ads.Rebuilding α) t log := by
  unfold recover
  cases fl.owned with
  | none =>
    refine (ensures_recordFailure _ _ _).mono (fun _ _ _ _ h => h) ?_
    rintro - u _ ⟨ha,rfl⟩
    exact ⟨ha,true,(append_nil _).symm⟩
  | some own =>
    simp only [Option.isSome_some,if_true]
    unfold failWithRollback
    rw [ensures_bind]
    refine ensures_call (fun e he => nomatch hg.symm.trans he) fun gen _ => ?_
    rw [ensures_bind]
    apply ensures_observe
    split
    all_goals
      refine (ensures_recordFailure _ _ _).mono (fun _ _ _ _ h => h) ?_
      rintro - u _ ⟨ha,rfl⟩
      exact ⟨ha,_,rfl⟩

/-- What a rebuild promises whatever its adapters and the storage do. -/
structure Transactional {ε α : Type} (machine : Machine σ)
    (outcome : Outcome (Machine σ) RebuildStep ε α) : Prop where
  retained : ∀ error, outcome.result = .error error → outcome.state.active = machine.active
  ordered : Ordered machine.active outcome.log

/-- The values and worlds of a rebuild in which everything up to the handoff succeeds. -/
structure Progress (σ Plan Build : Type) where
  state : WorkspaceState
  desired : PreparedRebuildPlan Plan
  checkoutHasChanges : Bool
  generation : GenerationId
  build : Build
  candidate : ActiveGeneration
  (prepared validated inspected built quiesced aside created handedOff : σ)

/-- Everything up to the handoff succeeds, and the candidate is new. -/
structure Ready (request : RebuildRequest)
    (adapters : Adapters σ Plan Build PlanError PreflightError StatusError Error)
    (host : Host) (machine : Machine σ) (p : Progress σ Plan Build) : Prop where
  operation : request.operation.kind = .rebuilding
  backupName : validBackupName request.backupName = true
  locked : host.locked = true
  readable : host.readable = true
  file : machine.file = some p.state
  prepare : adapters.planner.prepare request.config p.state machine.world = (.ok p.desired, p.prepared)
  validateFrozen : adapters.planner.validateFrozen p.desired p.prepared = (.ok (), p.validated)
  hasChanges : adapters.status p.validated = (.ok p.checkoutHasChanges, p.inspected)
  generation : nextGeneration p.state.active = .ok p.generation
  announced : host.intent = none
  build : adapters.environment.build p.desired p.generation request.noCache p.inspected =
    (.ok p.build, p.built)
  quiesce : adapters.environment.quiesce p.state.active p.built = (.ok (), p.quiesced)
  backup : match p.state.active with
    | some old => adapters.environment.backup old request.backupName p.quiesced = (.ok (), p.aside)
    | none => p.aside = p.quiesced
  create : adapters.environment.createReady p.desired p.build p.generation p.aside =
    (.ok p.candidate, p.created)
  candidate : checkCandidate p.generation p.state.active p.candidate = .ok ()
  handoff : adapters.environment.handoff p.state.active p.candidate p.created = (.ok (), p.handedOff)

def Progress.preparation (p : Progress σ Plan Build) (request : RebuildRequest) : Preparation Plan where
  desired := p.desired
  checkoutHasChanges := p.checkoutHasChanges
  previous := p.state.active
  generation := p.generation
  state := ((p.state.updateDesired p.desired.profile p.desired.config
    p.desired.fingerprints).setOperation request.operation).setLastError none

theorem yields_backupPrevious {u : Machine σ} {done : Unit} :
    Steps.Yields (backupPrevious req environment plan build) t done u ↔
      u.file = t.file ∧ match plan.previous with
        | some old => environment.backup old req.backupName t.world = (.ok (), u.world)
        | none => u.world = t.world := by
  unfold backupPrevious
  cases plan.previous with
  | some old =>
    rw [yields_attempt,Machine.onWorld_eq_ok]
    constructor
    · rintro ⟨w,hb,rfl⟩
      exact ⟨rfl,hb⟩
    · rintro ⟨hf,hb⟩
      refine ⟨u.world,hb,?_⟩
      rw [← hf]
  | none =>
    dsimp only
    rw [yields_pure]
    constructor
    · rintro ⟨-,rfl⟩
      exact ⟨rfl,rfl⟩
    · rintro ⟨hf,hw⟩
      refine ⟨rfl,?_⟩
      cases t
      cases u
      cases hf
      cases hw
      rfl

/-- A replacement that reaches the commit was ready. -/
theorem exists_ready {u v : Machine σ} (hp : Steps.Yields (prepareRebuild req ads host) m plan t)
    (hb : Steps.Yields (buildImage req ads.environment plan) t build u)
    (hr : Steps.Yields (makeReady req ads.environment plan build) u candidate v) :
    ∃ p, Ready req ads host m p := by
  unfold prepareRebuild planRebuild at hp
  unfold buildImage at hb
  unfold makeReady at hr
  simp only [yields_bind,yields_call,yields_attempt,yields_backupPrevious,
    Machine.loadWorkspaceState_eq_ok,Machine.onWorld_eq_ok,Machine.persistWorkspaceState_eq_ok,
    yields_pure,Prod.mk.injEq,require_eq_ok] at hp hb hr
  obtain ⟨planned,-,⟨-,ch,⟨hv,hce⟩,-,locked,⟨hlc,hlo⟩,st,loaded,
    ⟨hre,hf,hl⟩,desired,-,⟨prep,hpr,rfl⟩,⟨⟩,-,
    ⟨validated,hva,rfl⟩,checkoutHasChanges,-,⟨insp,hc,rfl⟩,gen,-,
    ⟨hg,rfl⟩,rfl,rfl⟩,-,-,⟨hi,rfl⟩,rfl,rfl⟩ := hp
  subst hce hlo hl
  obtain ⟨built,hb,rfl⟩ := hb
  obtain ⟨⟨⟩,-,⟨quiesced,hq,rfl⟩,⟨⟩,aside,⟨-,hba⟩,rdy,-,
    ⟨cr,hcr,rfl⟩,⟨⟩,-,⟨hch,rfl⟩,⟨⟩,-,⟨handedOff,hh,rfl⟩,rfl,-⟩ := hr
  rw [Bool.and_eq_true,beq_iff_eq] at hv
  exact ⟨⟨st,desired,checkoutHasChanges,gen,build,rdy,prep,validated,
    insp,built,quiesced,aside.world,cr,handedOff⟩,
    ⟨hv.1,hv.2,hlc,hre,hf,hpr,hva,hc,hg,hi,hb,hq,hba,hcr,hch,hh⟩⟩

variable {p : Progress σ Plan Build}

/-- A rebuild that is ready reaches the commit. -/
theorem Ready.yields (h : Ready req ads host m p) : Steps.Yields (prepareRebuild req ads host) m
        (p.preparation req) ⟨some (p.preparation req).state,p.inspected⟩ ∧
      Steps.Yields (buildImage req ads.environment (p.preparation req))
        ⟨some (p.preparation req).state,p.inspected⟩ p.build
        ⟨some (p.preparation req).state,p.built⟩ ∧
      Steps.Yields (makeReady req ads.environment (p.preparation req) p.build)
        ⟨some (p.preparation req).state,p.built⟩ p.candidate
        ⟨some (p.preparation req).state,p.handedOff⟩ := by
  unfold prepareRebuild planRebuild buildImage makeReady
  simp only [yields_bind,yields_call,yields_attempt,yields_backupPrevious,
    Machine.loadWorkspaceState_eq_ok,Machine.onWorld_eq_ok,Machine.persistWorkspaceState_eq_ok,
    yields_pure,Prod.mk.injEq,require_eq_ok]
  refine ⟨?_,?_,?_⟩
  · refine ⟨p.preparation req,⟨m.file,p.inspected⟩,?_,(),_,⟨h.announced,rfl⟩,rfl,rfl⟩
    refine ⟨(),_,⟨?_,rfl⟩,(),_,⟨h.locked,rfl⟩,p.state,_,⟨h.readable,h.file,rfl⟩,
      p.desired,_,⟨p.prepared,h.prepare,rfl⟩,(),_,⟨p.validated,h.validateFrozen,rfl⟩,
      p.checkoutHasChanges,_,⟨p.inspected,h.hasChanges,rfl⟩,p.generation,_,
      ⟨h.generation,rfl⟩,rfl,rfl⟩
    rw [h.operation,h.backupName]
    rfl
  · exact ⟨p.built,h.build,rfl⟩
  · exact ⟨(),_,⟨p.quiesced,h.quiesce,rfl⟩,(),⟨_,p.aside⟩,⟨rfl,h.backup⟩,p.candidate,_,
      ⟨p.created,h.create,rfl⟩,(),_,⟨h.candidate,rfl⟩,(),_,⟨p.handedOff,h.handoff,rfl⟩,rfl,rfl⟩

theorem ne_of_nextGeneration {gen : GenerationId} (h : nextGeneration previous = .ok gen)
    (hc : candidate.generation = gen) : some candidate ≠ previous := by
  rintro rfl
  unfold nextGeneration at h
  dsimp only at h
  split_ifs at h with hv
  cases h
  rw [not_or,Option.any_some,beq_iff_eq] at hv
  rw [hc] at hv
  exact hv.2 rfl

theorem Ready.candidate_ne (h : Ready req ads host m p) : some p.candidate ≠ m.active := by
  have hc := h.candidate
  unfold checkCandidate at hc
  split_ifs at hc with hg
  unfold Machine.active
  rw [h.file]
  exact ne_of_nextGeneration h.generation (not_not.mp hg)

/-- The commit is the only step that can lose the active generation. -/
theorem ensures_replaceGeneration (hs : Starts m plan) (ha : s.active = m.active)
    (hp : Steps.Yields (prepareRebuild req ads host) m plan s) :
    Steps.Ensures (fun _ _ log => ∀ ok, Ordered m.active (log++[(.cleanup, ok)]))
      (fun fl t log => Fallen m.active fl log ∧ (t.active = m.active ∨
        host.commit = some .syncParent ∧ ∃ p, Ready req ads host m p))
      (replaceGeneration req ads.environment host plan) s [] := by
  unfold replaceGeneration buildImage
  rw [ensures_bind]
  refine ensures_attempt (fun _ _ => ⟨fun _ => ordered_unbuilt,.inl ha⟩) fun build hb => ?_
  rw [ensures_bind,← hs.previous]
  refine ensures_makeReady.mono ?_ ?_
  · rintro candidate u _ hr ⟨hf,rfl⟩
    have hre := hf.active.trans (ha.trans hs.previous.symm)
    rw [ensures_bind]
    refine ensures_attempt (fun e he => ⟨fallen_of_owned _ rfl rfl,?_⟩) fun _ _ => ?_
    · rw [Machine.active,Machine.file_persistWorkspaceState]
      split_ifs with hef
      · refine .inr ⟨?_,exists_ready hp (yields_attempt.mpr (Prod.ext hb rfl)) hr⟩
        cases hc : host.commit with
        | none =>
          rw [hc] at he
          cases he
        | some stg =>
          rw [hc] at hef
          rw [AtomicWrite.eq_syncParent hef]
      · exact .inl hre
    · refine ensures_pure fun ok => ?_
      have hl : done ([.quiesce]++(backupSteps plan.previous++[.create,.check,.handoff])) ++
          [(RebuildStep.commit, true)] = done (laterSteps plan.previous) := by
        unfold done laterSteps
        conv_rhs => rw [map_append]
        rfl
      rw [cons_append,hl]
      exact ordered_committed ok
  · rintro fl u log ⟨hf,hfa⟩
    exact ⟨hfa,.inl (hf.active.trans (ha.trans hs.previous.symm))⟩

theorem ensures_rebuildWorkspace (m : Machine σ) :
    Steps.Ensures (fun _ _ log => Ordered m.active log)
      (fun _ t log => Ordered m.active log ∧ (t.active = m.active ∨
        (∃ p, Ready req ads host m p) ∧ host.commit = some .syncParent ∧
          AtomicWrite.takesEffect host.record = false))
      (rebuildWorkspace req ads host) m [] := by
  unfold rebuildWorkspace
  rw [ensures_bind]
  refine (ensures_prepareRebuild m).mono ?_ ?_
  · rintro plan s _ hp ⟨hs,ha,rfl⟩
    rw [ensures_bind]
    refine Steps.Ensures.handle ((ensures_replaceGeneration hs ha hp).mono ?_ fun _ _ _ h => h) ?_
    · intro rdy t log _ ho
      rw [ensures_bind]
      exact ensures_observe (ensures_pure (ho _))
    · rintro fl t log ⟨hf,hl⟩
      refine (ensures_recover hs.generation).mono (fun _ _ _ _ h => h.elim) ?_
      rintro - u _ ⟨hr,ok,rfl⟩
      refine ⟨hf ok,?_⟩
      rw [hr,recordedActive]
      cases hre : AtomicWrite.takesEffect host.record with
      | true => exact .inl hs.state
      | false => exact hl.imp id fun hl => ⟨hl.2,hl.1,rfl⟩
  · rintro - t _ ⟨ha,rfl⟩
    exact ⟨ordered_nil,.inl ha⟩

/-- A commit that is reported as failed after its effect, and whose failure is not recorded,
names the candidate. -/
theorem Ready.lost (h : Ready req ads host m p) (hc : host.commit = some .syncParent)
    (hre : AtomicWrite.takesEffect host.record = false) :
    ∃ er t, Steps.Fails (rebuildWorkspace req ads host) m er t ∧ t.active = some p.candidate := by
  obtain ⟨hp,hb,hr⟩ := h.yields
  have hg := h.generation
  obtain ⟨fl,t,hrp,hl⟩ : ∃ fl t, Steps.Fails
      (replaceGeneration req ads.environment host (p.preparation req))
      ⟨some (p.preparation req).state,p.inspected⟩ fl t ∧
      t.active = some p.candidate := by
    refine ⟨⟨.forwardingHandedOff,.state (.storage .syncParent),some (p.build, some p.candidate)⟩,
      _,fails_bind.mpr (.inr ⟨_,_,hb,fails_bind.mpr (.inr
        ⟨_,_,hr,fails_bind.mpr (.inl ⟨?_,rfl⟩)⟩)⟩),?_⟩
    all_goals
      unfold commitCandidate
      rw [hc]
      rfl
  obtain ⟨er,u,-,hrc,ha,-⟩ := Steps.Ensures.fails (ensures_recover hg :
    Steps.Ensures _ _ (recover req ads host (p.preparation req) fl :
      ads.Rebuilding (Build × ActiveGeneration)) t [])
  refine ⟨er,u,fails_bind.mpr (.inr ⟨_,_,hp,fails_bind.mpr (.inl (fails_handle hrp hrc))⟩),?_⟩
  rw [ha,recordedActive,hre]
  exact hl

/-- A rebuild keeps its promises, unless the commit is reported as failed after it has
replaced the file and the failure cannot be recorded over it. -/
theorem transactional_iff (request : RebuildRequest)
    (adapters : Adapters σ Plan Build PlanError PreflightError StatusError Error) (host : Host)
    (machine : Machine σ) :
    Transactional machine (rebuildWorkspace request adapters host machine) ↔
      ¬((∃ p, Ready request adapters host machine p) ∧ host.commit = some .syncParent ∧
        AtomicWrite.takesEffect host.record = false) := by
  constructor
  · rintro hk ⟨⟨p,hp⟩,hc,hre⟩
    obtain ⟨error,t,⟨her,rfl⟩,ha⟩ := hp.lost hc hre
    exact hp.candidate_ne (ha.symm.trans (hk.retained error her))
  · intro hf
    have he := @ensures_rebuildWorkspace _ _ _ _ _ _ _ request adapters host machine
    unfold Steps.Ensures at he
    cases hr : (rebuildWorkspace request adapters host machine).result with
    | ok out =>
      rw [hr] at he
      exact ⟨fun error her => (nomatch hr.symm.trans her),he⟩
    | error e =>
      rw [hr] at he
      obtain ⟨ho,ha | hl⟩ := he
      · exact ⟨fun _ _ => ha,ho⟩
      · exact (hf hl).elim

end steps

/-! ## A lost commit

The second generation is committed although the sync of the directory is reported as
failed; then the disk is full and the failure is not recorded. -/

def sampleRequest : RebuildRequest where
  config := none
  operation := ⟨.rebuilding,some "r1",some "2026-01-01T00:00:00Z",by decide⟩
  backupName := "cdenv-backup-1"
  noCache := false
  completedAt := "2026-01-01T00:01:00Z"

/-- Every adapter succeeds. -/
def sampleAdapters : Adapters Unit Unit Unit Unit Unit Unit Unit where
  planner := {
    prepare := fun _ state world =>
      (.ok ⟨state.devcontainerProfile,state.desiredDevcontainerConfig,state.desiredFingerprints,
        ()⟩, world)
    validateFrozen := fun _ world => (.ok (), world) }
  status := fun world => (.ok false, world)
  environment := {
    build := fun _ _ _ world => (.ok (), world)
    quiesce := fun _ world => (.ok (), world)
    backup := fun _ _ world => (.ok (), world)
    createReady := fun _ _ generation world => (.ok (sampleActive generation .other), world)
    handoff := fun _ _ world => (.ok (), world)
    rollback := fun _ world => (.ok (), world)
    cleanup := fun _ world => (.ok (), world)
    describe := fun _ => [] }

def lostCommit : Host where
  locked := true
  readable := true
  intent := none
  commit := some .syncParent
  record := some .write
  describe := fun _ => []

def firstGeneration : Machine Unit := ⟨some (sampleState (sampleActive .first .sample)),()⟩

theorem candidate_active_after_rollback : (.rollback, true) ∈
        (rebuildWorkspace sampleRequest sampleAdapters lostCommit firstGeneration).log ∧
      (rebuildWorkspace sampleRequest sampleAdapters lostCommit firstGeneration).state.active =
        some (sampleActive ⟨2,by decide⟩ .other) ∧
      ¬Transactional firstGeneration
        (rebuildWorkspace sampleRequest sampleAdapters lostCommit firstGeneration) := by
  have ha : (rebuildWorkspace sampleRequest sampleAdapters lostCommit
      firstGeneration).state.active = some (sampleActive ⟨2,by decide⟩ .other) := by
    decide +kernel
  refine ⟨by decide +kernel,ha,?_⟩
  rintro ⟨hr,-⟩
  have hk := hr _ rfl
  revert hk
  decide +kernel

end Cdenv.WorkspaceRebuild
