import Cdenv.WorkspaceReconciliation

/-!
# What a reconciliation commits

A failed reconciliation leaves the active generation as it was. A successful one commits
what the environment returned, after comparing the generation and the build and create
fingerprints with those of the active generation. The runtime fingerprint is overwritten
with the desired one where the two differed before. Where they did not, nobody looks at the
one that the environment returned.
-/
namespace Cdenv.WorkspaceReconciliation
open TextScan Fallible Identity WorkspaceRecord StepLog Steps

/-- The generation that may stand in the file after success. -/
structure Matches (previous : Option ActiveGeneration) (desired : PlanFingerprints)
    (active : ActiveGeneration) : Prop where
  kept : ∀ old, previous = some old → active.generation = old.generation ∧
    active.fingerprints.build = old.fingerprints.build ∧
    active.fingerprints.create = old.fingerprints.create
  created : previous = none → active.fingerprints.build = desired.build ∧
    active.fingerprints.create = desired.create
  runtime : active.fingerprints.runtime = desired.runtime

/-- Where no runtime input differs, the environment reports the desired one. -/
def ReportsRuntime (previous : Option ActiveGeneration) (desired : PlanFingerprints)
    (ready : ReadyEnvironment) : Prop :=
  ∀ old, previous = some old → desired.runtime = old.fingerprints.runtime →
    ready.active.fingerprints.runtime = desired.runtime

section readiness
variable {previous : Option ActiveGeneration} {desired : PlanFingerprints}
variable {ready accepted : ReadyEnvironment}

theorem validateReadiness_eq_ok {drift : CategoryDrift}
    (h : validateReadiness previous desired drift ready = .ok accepted) :
    (∀ old, previous = some old → ready.active.generation = old.generation) ∧
      validCategories previous desired drift ready = true ∧
      accepted.active = if drift.runtime then
        commitRuntimeFingerprint ready.active desired.runtime else ready.active := by
  unfold validateReadiness at h
  split_ifs at h with hg hc hr
  all_goals
    cases h
    refine ⟨?_,?_,?_⟩
    · rintro old rfl
      rw [Option.any_some,bne_iff_ne,not_not] at hg
      exact hg.symm
    · rw [Bool.not_eq_true',Bool.not_eq_false] at hc
      exact hc
  · rw [if_pos hr]
  · rw [if_neg hr]

/-- Exactly the reported runtime fingerprint is left open by the checks. -/
theorem matches_iff
    (h : validateReadiness previous desired (driftFrom previous desired) ready = .ok accepted) :
    Matches previous desired accepted.active ↔ ReportsRuntime previous desired ready := by
  obtain ⟨hg,hc,ha⟩ := validateReadiness_eq_ok h
  cases previous with
  | none =>
    have hr := eq_of_beq hc
    have hac : accepted.active = ready.active := ha
    refine iff_of_true ⟨?_,?_,?_⟩ ?_
    · intro old hol
      cases hol
    · intro _
      rw [hac,hr]
      exact ⟨rfl,rfl⟩
    · rw [hac,hr]
    · intro old hol
      cases hol
  | some old =>
    simp only [validCategories,Bool.and_eq_true,beq_iff_eq] at hc
    obtain ⟨⟨hb,hcr⟩,-⟩ := hc
    have hk := hg old rfl
    cases hd : (driftFrom (some old) desired).runtime with
    | true =>
      rw [hd,if_pos rfl] at ha
      have hdi := bne_iff_ne.mp hd
      refine iff_of_true ⟨?_,?_,?_⟩ ?_
      · intro b ho
        cases ho
        rw [ha]
        exact ⟨hk,hb,hcr⟩
      · intro hn
        cases hn
      · rw [ha]
        rfl
      · intro b ho hs
        cases ho
        exact (hdi hs).elim
    | false =>
      rw [hd,if_neg Bool.false_ne_true] at ha
      have hs : desired.runtime = old.fingerprints.runtime := by
        simpa [driftFrom,CategoryDrift.between] using hd
      rw [ha]
      constructor
      · intro hm b ho _
        exact hm.runtime
      · intro hre
        refine ⟨?_,?_,hre old rfl hs⟩
        · intro b ho
          cases ho
          exact ⟨hk,hb,hcr⟩
        · intro hn
          cases hn

end readiness

section transaction
variable {σ Plan PlanError PreflightError Error : Type}
variable {req : ReconciliationRequest}
variable {ads : Adapters σ Plan PlanError PreflightError Error} {host : Host}
variable {pl : Preparation Plan} {m t : Machine σ} {log : List (Empty × Bool)}
variable {unrecorded : WorkspaceStateError → ReconciliationError PlanError PreflightError Error}
variable {error : ReconciliationError PlanError PreflightError Error}

/-- A failure is recorded without a change of the active generation. -/
theorem ensures_recordFailure {α : Type} {msg : Text}
    {I : α → Machine σ → List (Empty × Bool) → Prop} (h : t.active = pl.state.active) :
    Steps.Ensures I (fun _ u _ => u.active = pl.state.active)
      (recordFailure ads host pl msg unrecorded error : ads.Reconciling α) t log := by
  have ha : (t.persistWorkspaceState ((pl.state.setOperation .idle).setLastError
      (some (.redact msg))) host.record).2.active = pl.state.active :=
    Machine.active_persistWorkspaceState rfl h
  unfold recordFailure
  rw [ensures_bind]
  exact ensures_call (fun _ _ => ha) fun _ _ => ensures_fail ha

/-- Nothing before the commit changes the active generation. -/
theorem ensures_reachReadiness (h : t.active = pl.state.active) :
    Steps.Ensures (fun _ u _ => u.active = pl.state.active)
      (fun _ u _ => u.active = pl.state.active) (reachReadiness ads host pl) t log := by
  unfold reachReadiness
  rw [ensures_bind]
  apply ensures_query
  split
  · unfold reconcileEnvironment
    rw [ensures_bind]
    apply ensures_query
    split
    · unfold acceptReadiness
      split
      · exact ensures_pure h
      all_goals exact ensures_recordFailure h
    · exact ensures_recordFailure h
  · exact ensures_recordFailure h

theorem respects_planReconciliation :
    Steps.Respects Machine.SameFile (planReconciliation req ads host) := by
  repeat refine Steps.Respects.bind Machine.SameFile.trans (fun _ => rfl) fun _ => ?_
  exact fun _ => rfl

/-- The values and worlds of a reconciliation that succeeds. -/
structure Progress (σ Plan : Type) where
  state : WorkspaceState
  desired : PreparedDesiredPlan Plan
  (ready accepted : ReadyEnvironment)
  (prepared checked reconciled : σ)

def Progress.preparation (p : Progress σ Plan) (request : ReconciliationRequest) :
    Preparation Plan where
  desired := p.desired
  policy := featurePolicy p.state
  previous := p.state.active
  drift := driftFrom p.state.active p.desired.fingerprints
  state := ((p.state.updateDesired p.desired.profile p.desired.config
    p.desired.fingerprints).setOperation request.operation).setLastError none

/-- Planner, environment, checks and storage let the reconciliation reach its end. -/
structure Commits (request : ReconciliationRequest)
    (adapters : Adapters σ Plan PlanError PreflightError Error) (host : Host)
    (machine : Machine σ) (p : Progress σ Plan) : Prop where
  locked : host.locked = true
  readable : host.readable = true
  file : machine.file = some p.state
  prepare : adapters.planner.prepare request.config p.state (featurePolicy p.state) machine.world =
    (.ok p.desired, p.prepared)
  determinate : p.state.active.any (·.lifecycle.indeterminate) = false
  announced : host.intent = none
  preflight : adapters.planner.preflight p.desired (featurePolicy p.state) p.prepared =
    (.ok (), p.checked)
  reconcile : adapters.environment.reconcile ⟨p.desired,p.state.active,
    driftFrom p.state.active p.desired.fingerprints⟩ p.checked = (.ok p.ready, p.reconciled)
  accepted : validateReadiness p.state.active p.desired.fingerprints
    (driftFrom p.state.active p.desired.fingerprints) p.ready = .ok p.accepted
  committed : host.commit = none

theorem not_yields_recordFailure {α : Type} {msg : Text} {a : α} :
    ¬Steps.Yields (recordFailure ads host pl msg unrecorded error : ads.Reconciling α) m a t := by
  unfold recordFailure
  rw [yields_bind]
  rintro ⟨-,s,-,hf⟩
  exact yields_fail hf

variable {accepted : ReadyEnvironment}

theorem yields_acceptReadiness {ready : ReadyEnvironment} :
    Steps.Yields (acceptReadiness ads host pl ready) m accepted t ↔
      validateReadiness pl.previous pl.desired.fingerprints pl.drift ready = .ok accepted ∧
        m = t := by
  unfold acceptReadiness
  split
  · next hv => rw [hv,yields_pure,Except.ok.injEq]
  · next hv =>
    rw [hv]
    exact iff_of_false not_yields_recordFailure fun h => nomatch h.1
  · next hv =>
    rw [hv]
    exact iff_of_false not_yields_recordFailure fun h => nomatch h.1

theorem yields_reconcileEnvironment : Steps.Yields (reconcileEnvironment ads host pl) m accepted t ↔
      ∃ ready world, ads.environment.reconcile ⟨pl.desired,pl.previous,pl.drift⟩
          m.world = (.ok ready, world) ∧
        validateReadiness pl.previous pl.desired.fingerprints pl.drift ready = .ok accepted ∧
        t = { m with world } := by
  unfold reconcileEnvironment
  simp only [yields_bind,yields_query]
  constructor
  · rintro ⟨rc,s,hre,ha⟩
    cases rc with
    | error src => exact (not_yields_recordFailure ha).elim
    | ok ready =>
      obtain ⟨world,hr,rfl⟩ := Machine.onWorld_eq_ok.mp hre
      obtain ⟨hv,rfl⟩ := yields_acceptReadiness.mp ha
      exact ⟨ready,world,hr,hv,rfl⟩
  · rintro ⟨ready,world,hr,hv,rfl⟩
    exact ⟨.ok ready,_,Machine.onWorld_eq_ok.mpr ⟨world,hr,rfl⟩,yields_acceptReadiness.mpr ⟨hv,rfl⟩⟩

theorem yields_reachReadiness : Steps.Yields (reachReadiness ads host pl) m accepted t ↔
      ∃ ch ready rc, ads.planner.preflight pl.desired pl.policy m.world = (.ok (), ch) ∧
        ads.environment.reconcile ⟨pl.desired,pl.previous,pl.drift⟩ ch = (.ok ready, rc) ∧
        validateReadiness pl.previous pl.desired.fingerprints pl.drift ready = .ok accepted ∧
        t = { m with world := rc } := by
  unfold reachReadiness
  simp only [yields_bind,yields_query]
  constructor
  · rintro ⟨r,s,hp,hl⟩
    cases r with
    | error src => exact (not_yields_recordFailure hl).elim
    | ok =>
      obtain ⟨ch,hc,rfl⟩ := Machine.onWorld_eq_ok.mp hp
      obtain ⟨ready,rc,hr,hv,rfl⟩ := yields_reconcileEnvironment.mp hl
      exact ⟨ch,ready,rc,hc,hr,hv,rfl⟩
  · rintro ⟨ch,ready,rc,hc,hr,hv,rfl⟩
    exact ⟨.ok (),_,Machine.onWorld_eq_ok.mpr ⟨ch,hc,rfl⟩,
      yields_reconcileEnvironment.mpr ⟨ready,rc,hr,hv,rfl⟩⟩

/-- A success is one in which everything went well, and it commits what was accepted. -/
theorem exists_progress {r : ReconciliationOutcome}
    (h : Steps.Yields (reconcileWorkspace req ads host) m r t) :
    ∃ p, Commits req ads host m p ∧ t.active = some p.accepted.active := by
  unfold reconcileWorkspace planReconciliation at h
  simp only [yields_bind,yields_call,yields_reachReadiness,yields_pure,
    Machine.loadWorkspaceState_eq_ok,Machine.onWorld_eq_ok,Machine.persistWorkspaceState_eq_ok,
    Prod.mk.injEq,require_eq_ok] at h
  obtain ⟨pl,-,⟨-,locked,⟨hlc,hlo⟩,s,loaded,⟨hr,hf,hl⟩,desired,
    -,⟨prep,hpr,rfl⟩,-,-,⟨hd,rfl⟩,rfl,rfl⟩,-,-,⟨hi,rfl⟩,
    accepted,-,⟨ch,ready,rc,hp,hre,hv,rfl⟩,-,-,
    ⟨hc,rfl⟩,-,rfl⟩ := h
  subst hlo hl
  exact ⟨⟨s,desired,ready,accepted,prep,ch,rc⟩,
    ⟨hlc,hr,hf,hpr,by rwa [Bool.not_eq_true'] at hd,hi,hp,hre,hv,hc⟩,rfl⟩

theorem Commits.yields {p : Progress σ Plan} (h : Commits req ads host m p) :
    ∃ r, Steps.Yields (reconcileWorkspace req ads host) m r
      ⟨some ((p.preparation req).state.commitActive p.accepted.active req.completedAt),
        p.reconciled⟩ := by
  unfold reconcileWorkspace planReconciliation
  simp only [yields_bind,yields_call,yields_reachReadiness,yields_pure,
    Machine.loadWorkspaceState_eq_ok,Machine.onWorld_eq_ok,Machine.persistWorkspaceState_eq_ok,
    Prod.mk.injEq,require_eq_ok]
  refine ⟨_,p.preparation req,⟨m.file,p.prepared⟩,?_,(),_,⟨h.announced,rfl⟩,
    p.accepted,_,⟨p.checked,p.ready,p.reconciled,h.preflight,h.reconcile,h.accepted,rfl⟩,
    (),_,⟨h.committed,rfl⟩,rfl,rfl⟩
  exact ⟨(),_,⟨h.locked,rfl⟩,p.state,_,⟨h.readable,h.file,rfl⟩,p.desired,_,
    ⟨p.prepared,h.prepare,rfl⟩,(),_,⟨by rw [h.determinate,Bool.not_false],rfl⟩,rfl,rfl⟩

/-- The state file is written, or a failure reported that leaves it as it was. -/
structure Host.AllOrNothing (host : Host) : Prop where
  intent : AtomicWrite.AllOrNothing host.intent
  record : AtomicWrite.AllOrNothing host.record
  commit : AtomicWrite.AllOrNothing host.commit

def Plans (request : ReconciliationRequest)
    (adapters : Adapters σ Plan PlanError PreflightError Error) (machine : Machine σ)
    (desired : PreparedDesiredPlan Plan) : Prop :=
  ∃ state world, machine.file = some state ∧
    adapters.planner.prepare request.config state (featurePolicy state) machine.world =
      (.ok desired, world)

/-- What a reconciliation promises whatever its adapters do. -/
structure Consistent {ε α : Type} (request : ReconciliationRequest)
    (adapters : Adapters σ Plan PlanError PreflightError Error) (machine : Machine σ)
    (outcome : Outcome (Machine σ) Empty ε α) : Prop where
  retained : ∀ error, outcome.result = .error error → outcome.state.active = machine.active
  committed : ∀ result, outcome.result = .ok result → ∃ desired active,
    Plans request adapters machine desired ∧ outcome.state.active = some active ∧
      Matches machine.active desired.fingerprints active

theorem active_planReconciliation (h : Steps.Yields (planReconciliation req ads host)
    m pl t) : pl.state.active = m.active := by
  unfold planReconciliation at h
  simp only [yields_bind,yields_call,yields_pure,
    Machine.loadWorkspaceState_eq_ok,Prod.mk.injEq] at h
  obtain ⟨-,locked,⟨-,hl⟩,s,loaded,⟨-,hf,-⟩,desired,-,-,-,-,-,rfl,-⟩ := h
  rw [hl,Machine.active,hf]
  rfl

/-- No failure changes the active generation. -/
theorem ensures_reconcileWorkspace (hh : host.AllOrNothing) :
    Steps.Ensures (fun _ _ _ => True) (fun _ t _ => t.active = m.active)
      (reconcileWorkspace req ads host) m [] := by
  unfold reconcileWorkspace
  rw [ensures_bind]
  refine (respects_planReconciliation.ensures m []).mono ?_ fun _ _ _ h => h.active
  intro pl planned log hp hsa
  have hs := active_planReconciliation hp
  have ha : (planned.persistWorkspaceState pl.state host.intent).2.active = pl.state.active :=
    Machine.active_persistWorkspaceState rfl (hsa.active.trans hs.symm)
  rw [← hs,ensures_bind]
  refine ensures_call (fun _ _ => ha) fun _ _ => ?_
  rw [ensures_bind]
  refine (ensures_reachReadiness ha).mono ?_ fun _ _ _ h => h
  intro ready reached log _ hr
  rw [ensures_bind]
  refine ensures_call (fun e he => ?_) fun _ _ => ensures_pure trivial
  exact (Machine.sameFile_of_persistWorkspaceState hh.commit (Prod.ext he rfl)).active.trans hr

theorem consistent_iff (request : ReconciliationRequest)
    (adapters : Adapters σ Plan PlanError PreflightError Error) (host : Host)
    (machine : Machine σ) (hhost : host.AllOrNothing) :
    Consistent request adapters machine (reconcileWorkspace request adapters host machine) ↔
      ∀ p, Commits request adapters host machine p →
        ReportsRuntime p.state.active p.desired.fingerprints p.ready := by
  constructor
  · intro hc p hp
    obtain ⟨r,hr,hs⟩ := hp.yields
    obtain ⟨desired,active,⟨s,w,hf,hpr⟩,ha,hm⟩ := hc.committed r hr
    rw [hp.file] at hf
    cases hf
    rw [hp.prepare] at hpr
    cases hpr
    rw [hs] at ha
    cases ha
    rw [Machine.active,hp.file] at hm
    exact (matches_iff hp.accepted).mp hm
  · intro hre
    have he := @ensures_reconcileWorkspace _ _ _ _ _ request adapters host machine hhost
    refine ⟨fun error her => ?_,fun r hr => ?_⟩
    · unfold Steps.Ensures at he
      rwa [her] at he
    obtain ⟨p,hp,ha⟩ := exists_progress ⟨hr,rfl⟩
    refine ⟨p.desired,p.accepted.active,⟨p.state,p.prepared,hp.file,hp.prepare⟩,ha,?_⟩
    rw [Machine.active,hp.file]
    exact (matches_iff hp.accepted).mpr (hre p hp)

end transaction

/-! ## A foreign runtime fingerprint

Nothing differs from the active generation, so the environment is asked for a start only;
what it returns as the runtime fingerprint is committed as it is. -/

def sampleRequest : ReconciliationRequest where
  config := none
  operation := ⟨.starting,some "u1",some "2026-01-01T00:00:00Z",by decide⟩
  completedAt := "2026-01-01T00:01:00Z"

/-- The plan is the one of the state file, and the container already runs. -/
def sampleAdapters (returned : ActiveGeneration) : Adapters Unit Unit Unit Unit Unit where
  planner := {
    prepare := fun _ state _ world =>
      (.ok ⟨state.devcontainerProfile,state.desiredDevcontainerConfig,state.desiredFingerprints,
        ()⟩, world)
    preflight := fun _ _ world => (.ok (), world)
    describe := fun _ => [] }
  environment := {
    reconcile := fun _ world => (.ok ⟨returned,.alreadyRunning,.current⟩, world)
    describe := fun _ => [] }

def soundHost : Host := ⟨true,true,none,none,none⟩

def firstGeneration : ActiveGeneration := sampleActive .first .sample

def unchanged : Machine Unit := ⟨some (sampleState firstGeneration),()⟩

def foreignRuntime : ActiveGeneration :=
  commitRuntimeFingerprint firstGeneration
    ⟨"keyed:"++List.replicate 64 'b',by decide⟩

theorem consistent_iff_unchanged :
    soundHost.AllOrNothing ∧ Consistent sampleRequest (sampleAdapters firstGeneration) unchanged
      (reconcileWorkspace sampleRequest (sampleAdapters firstGeneration) soundHost unchanged) := by
  have hh : soundHost.AllOrNothing := ⟨by decide,by decide,by decide⟩
  refine ⟨hh,(consistent_iff _ _ _ _ hh).mpr ?_⟩
  intro p hp old ho hsa
  have hr : .ok ⟨firstGeneration,.alreadyRunning,.current⟩ = Except.ok p.ready :=
    congrArg Prod.fst hp.reconcile
  have hs : some (sampleState firstGeneration) = some p.state := hp.file
  rw [Except.ok.injEq] at hr
  rw [Option.some.injEq] at hs
  rw [← hs] at ho
  cases ho
  rw [hsa,← hr]

theorem foreign_runtime_committed :
    (reconcileWorkspace sampleRequest (sampleAdapters foreignRuntime) soundHost
        unchanged).state.active = some foreignRuntime ∧
      ¬Consistent sampleRequest (sampleAdapters foreignRuntime) unchanged
        (reconcileWorkspace sampleRequest (sampleAdapters foreignRuntime) soundHost unchanged) := by
  have ha : (reconcileWorkspace sampleRequest (sampleAdapters foreignRuntime) soundHost
      unchanged).state.active = some foreignRuntime := by
    decide +kernel
  refine ⟨ha,?_⟩
  intro hco
  obtain ⟨desired,active,⟨s,w,hf,hp⟩,hc,hm⟩ := hco.committed _ rfl
  cases hf
  cases hp
  cases hc
  have hr := hm.runtime
  revert hr
  decide +kernel

end Cdenv.WorkspaceReconciliation
