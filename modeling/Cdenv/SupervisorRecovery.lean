import Cdenv.WorkspaceDown
import Cdenv.ImageRebuild

/-!
# What a crashed supervisor leaves in the way

A supervisor process that is killed leaves its state file or its control socket or both,
and nobody listens. `up` reconciles forwarding on top of that, and `down` stops the
workspace. Everything else that they do succeeds here: only the files that were left
decide.
-/
namespace Cdenv.SupervisorRecovery
open Fallible Identity PortPlanning WorkspaceRecord StepLog ForwardingSupervisor ImageRebuild Steps
open WorkspaceDown (ForwardingStopOutcome DownOutcome Invocation)

/-- Everything but the runtime directory is in order, and there is something to serve. -/
structure Undisturbed (production : ProductionImageRebuild) (outside : Outside)
    (facts : EnvironmentFacts) (ports : PortPlan) (desired : List DeclaredForward)
    (manifest : SupervisorManifest) : Prop where
  answers : ∀ site, outside.answers site = .done
  declared : desiredForwards ports = .ok desired
  listeners : outside.listeners.length = desired.length
  accepted : SupervisorManifest.new (production.claim facts.generation outside.provisioned.buildId
    outside.provisioned.protocolVersion) facts.container outside.provisioned.agentPath
    (desired.map .ofDeclared) = .ok manifest
  wanted : (desired.isEmpty && outside.lease.isNone) = false

section up
variable {production : ProductionImageRebuild} {outside : Outside} {facts : EnvironmentFacts}
variable {pts : PortPlan} {desired : List DeclaredForward} {mf : SupervisorManifest}
variable {prev : Option ActiveForwarding} {stateFile : Option StateFile} {socket : Bool}

theorem yields_ask {σ : Type} {site : Site} {s t : σ} (h : outside.answers site = .done) :
    Steps.Yields (outside.ask site) s () t ↔ s = t := by
  unfold Outside.ask Outside.perform
  rw [yields_call,h]
  simp [Reply.deliver]

theorem yields_checked {σ α ε : Type} {r : Except ε α} {e : ε → WorkflowError} {s t : σ} {a : α} :
    Steps.Yields (checked r e) s a t ↔ r = .ok a ∧ s = t := by
  unfold checked
  rw [yields_call,Prod.mk.injEq]

theorem exists_activeForwarding (h : Undisturbed production outside facts pts desired mf) :
    ∃ forwarding, production.activeForwarding outside desired = .ok forwarding := by
  unfold ProductionImageRebuild.activeForwarding
  rw [h.listeners,beq_self_eq_true]
  exact ⟨_,rfl⟩

variable {next : SupervisorRuntime} {forwarding : ActiveForwarding}

section

variable (h : Undisturbed production outside facts pts desired mf)
include h

/-- A start succeeds unless a socket is in its way. -/
theorem yields_startForwardingSupervisor {rt : SupervisorRuntime} {site : Site} :
    Steps.Yields (production.startForwardingSupervisor outside site facts desired) rt () next ↔
      (∃ stateFile, rt = .absent stateFile false) ∧
        next = .live (outside.lease.elim mf mf.withCredentialLease) true := by
  unfold ProductionImageRebuild.startForwardingSupervisor
  rw [((yields_ask (h.answers _)).mpr rfl).bind_iff,
    (yields_checked.mpr ⟨h.accepted,rfl⟩).bind_iff,yields_call,h.answers]
  exact SupervisorRuntime.startDetachedSupervisor_eq_ok

/-- The part that follows once there is no process to ask. -/
theorem yields_started {handler : WorkflowError → Steps SupervisorRuntime Empty WorkflowError Unit}
    (hh : ∀ er s a t, ¬Steps.Yields (handler er) s a t) :
    Steps.Yields (do
        (production.startForwardingSupervisor outside .startSupervisor facts desired).handle handler
        checked (production.activeForwarding outside desired) id)
      (.absent stateFile socket) forwarding next ↔
      socket = false ∧ production.activeForwarding outside desired = .ok forwarding ∧
        next = .live (outside.lease.elim mf mf.withCredentialLease) true := by
  rw [yields_bind]
  constructor
  · rintro ⟨⟨⟩,t,hs,hac⟩
    obtain ⟨hf,rfl⟩ := yields_checked.mp hac
    rcases yields_handle.mp hs with hs | ⟨er,s,-,hfa⟩
    · obtain ⟨⟨fs,ha⟩,rfl⟩ := (yields_startForwardingSupervisor h).mp hs
      cases ha
      exact ⟨rfl,hf,rfl⟩
    · exact absurd hfa (hh er s _ _)
  · rintro ⟨rfl,hf,rfl⟩
    refine ⟨(),_,yields_handle.mpr (.inl ?_),yields_checked.mpr ⟨hf,rfl⟩⟩
    exact (yields_startForwardingSupervisor h).mpr ⟨⟨stateFile,rfl⟩,rfl⟩

/-- A process that does not answer cannot be asked to end. -/
theorem yields_replaceSupervisor :
    Steps.Yields (production.replaceSupervisor outside facts desired prev)
      (.absent stateFile socket) forwarding next ↔
      (∀ cl, stateFile ≠ some (.state cl)) ∧ socket = false ∧
        production.activeForwarding outside desired = .ok forwarding ∧
        next = .live (outside.lease.elim mf mf.withCredentialLease) true := by
  unfold ProductionImageRebuild.replaceSupervisor
  rw [yields_query_bind]
  cases hl : (SupervisorRuntime.absent stateFile socket).loadSupervisorState with
  | some cl =>
    have hs : ∃ cl, stateFile = some (.state cl) := by
      unfold SupervisorRuntime.loadSupervisorState at hl
      split at hl
      · next heq => cases heq; exact ⟨_,rfl⟩
      · next heq => cases heq
      · cases hl
    obtain ⟨cl,rfl⟩ := hs
    refine iff_of_false ?_ fun ho => ho.1 cl rfl
    dsimp only [Option.isSome_some]
    rw [if_pos rfl,yields_bind]
    rintro ⟨⟨⟩,t,hst,-⟩
    rw [yields_call,h.answers] at hst
    cases hst
  | none =>
    have hs : ∀ cl, stateFile ≠ some (.state cl) := by
      rintro cl rfl
      cases hl
    dsimp only [Option.isSome_none]
    rw [if_neg Bool.false_ne_true,if_neg (by rw [h.wanted]; exact Bool.false_ne_true),
      yields_started h]
    · exact ⟨fun hy => ⟨hs,hy⟩,fun hy => hy.2⟩
    · intro er s a t hy
      cases prev with
      | none => exact yields_fail hy
      | some prev =>
        dsimp only at hy
        split_ifs at hy
        · obtain ⟨-,u,-,hf⟩ := yields_bind.mp hy
          exact yields_fail hf
        · exact yields_fail hy

/-- A replacement is started exactly where no socket is left and the state file, if there
is one, is not a state. -/
theorem yields_reconcileForwarding :
    (∃ forwarding, Steps.Yields (production.reconcileForwarding outside facts pts prev)
      (.absent stateFile socket) forwarding
      (.live (outside.lease.elim mf mf.withCredentialLease) true)) ↔
      socket = false ∧ ∀ cl, stateFile ≠ some (.state cl) := by
  have hk : production.keepsSupervisor outside facts desired prev
      (.absent stateFile socket) = false := by
    simp [ProductionImageRebuild.keepsSupervisor,SupervisorRuntime.process]
  unfold ProductionImageRebuild.reconcileForwarding
  simp only [(yields_checked.mpr ⟨h.declared,rfl⟩).bind_iff,
    ((yields_ask (h.answers _)).mpr rfl).bind_iff,yields_query_bind,hk]
  obtain ⟨forwarding,hf⟩ := exists_activeForwarding h
  constructor
  · rintro ⟨forwarding,hy⟩
    obtain ⟨hst,hs,-⟩ := (yields_replaceSupervisor h).mp hy
    exact ⟨hs,hst⟩
  · rintro ⟨hs,hst⟩
    exact ⟨forwarding,(yields_replaceSupervisor h).mpr ⟨hst,hs,hf,rfl⟩⟩

end

end up

/-- The supervisor as `down` stops it, with this runtime directory. -/
def scopedStop (production : ProductionImageRebuild) (runtime : SupervisorRuntime) :
    Option ActiveGeneration → Except ForwardingSupervisorError ForwardingStopOutcome
  | none => .ok .missing
  | some active =>
    (SupervisorRuntime.stop true .done (production.activeClaim active) runtime).1

/-- Nothing but the stop of the supervisor can go wrong. -/
structure StopsOtherwise {F L E : Type} (i : Invocation F L E) : Prop where
  stopping : i.operation.kind = .stopping
  locked : i.lock = .ok ()
  readable : i.readable = true
  written : ∀ state, i.writeFailure state = none
  alive : ∀ q, i.killedAt q = false
  lifecycle : ∀ active, ∃ outcome, i.lifecycle active = .ok outcome ∧ outcome ≠ .indeterminate
  environment : ∀ active, ∃ outcome, i.environment active = .ok outcome

section down
open WorkspaceDown Interaction Program
variable {F L E : Type} {i : Invocation F L E} {st : WorkspaceState} {machine : Machine Unit}
variable {K : Machine Unit → Prop} {G : DownError F L E → Machine Unit → Prop}

theorem serves_undisturbed {q : DownCall} {I : DownAnswer F L E q → Machine Unit → Prop}
    (h : StopsOtherwise i) (ha : I (i.answer q machine).1 (i.answer q machine).2) :
    Serves i.server K I G (call q) machine :=
  serves_server (fun hk => nomatch hk.symm.trans (h.alive q)) fun _ => ha

theorem serves_persist {I : Unit → Machine Unit → Prop}
    {e : WorkspaceStateError → DownError F L E} (h : StopsOtherwise i)
    (ha : I () { machine with file := some st }) :
    Serves i.server K I G (expect (persistWorkspaceState st) e) machine := by
  have hw : machine.persistWorkspaceState st (i.writeFailure st) = (.ok (), _) :=
    Machine.persistWorkspaceState_eq_ok.mpr ⟨h.written st,rfl⟩
  refine serves_expect (serves_undisturbed (q := .persistWorkspaceState st) h ⟨?_,?_⟩)
  · intro _ _
    change I () (machine.persistWorkspaceState st (i.writeFailure st)).2
    rw [hw]
    exact ha
  · intro er (he : (machine.persistWorkspaceState st (i.writeFailure st)).1 = .error er)
    rw [hw] at he
    cases he

theorem serves_finish (h : StopsOtherwise i) {recovery : InterruptedOperationRecovery}
    {forwarding : Except F ForwardingStopOutcome} {lc : LifecycleStopOutcome}
    {env : EnvironmentStopOutcome} (hl : lc ≠ .indeterminate) :
    Serves i.server (fun _ => False) (fun out _ => forwarding = .ok out.forwarding)
      (fun _ _ => ∀ out, forwarding ≠ .ok out)
      (finishDown st recovery forwarding (.ok lc) (.ok env)) machine := by
  have hd := beq_eq_false_iff_ne.mpr hl
  unfold finishDown
  rw [serves_bind]
  apply serves_persist h
  cases forwarding with
  | error error => exact fun _ => nofun
  | ok out =>
    simp only [failed,StopFailures.isEmpty,hd,Option.isNone_none,Bool.not_false,Bool.and_self]
    rfl

/-- `down` then succeeds exactly where the supervisor was stopped or left alone. -/
theorem serves_downWorkspace (h : StopsOtherwise i) (hfi : machine.file = some st) :
    Serves i.server (fun _ => False) (fun out _ => i.forwarding st.active = .ok out.forwarding)
      (fun _ _ => ∀ out, i.forwarding st.active ≠ .ok out)
      (downWorkspace i.operation) machine := by
  unfold downWorkspace
  rw [if_neg (not_not.mpr h.stopping),serves_bind]
  refine serves_expect (serves_undisturbed (q := .acquireLock) h ⟨?_,?_⟩)
  · intro _ _
    rw [serves_bind]
    have hl := Machine.loadWorkspaceState_eq_ok.mpr ⟨h.readable,hfi,rfl⟩
    refine serves_expect (serves_undisturbed (q := .loadWorkspaceState) h ⟨?_,?_⟩)
    · intro fs (hf : (machine.loadWorkspaceState i.readable).1 = .ok fs)
      rw [hl] at hf
      cases hf
      rw [serves_bind]
      apply serves_persist h
      unfold stopPhases
      rw [serves_bind]
      refine serves_undisturbed (q := .stopForwarding _) h ?_
      rw [serves_bind]
      refine serves_undisturbed (q := .cancelLifecycle _) h ?_
      rw [serves_bind]
      refine serves_undisturbed (q := .stopEnvironment _) h ?_
      obtain ⟨lc,hli,hd⟩ := h.lifecycle st.active
      obtain ⟨env,hen⟩ := h.environment
        (recordLifecycleStopped (announcement i.operation st) (i.lifecycle st.active)).active
      change Serves _ _ _ _ (finishDown _ _ (i.forwarding st.active)
        (i.lifecycle st.active) (i.environment (recordLifecycleStopped
          (announcement i.operation st) (i.lifecycle st.active)).active)) _
      rw [hen,hli]
      exact serves_finish h hd
    · intro er (he : (machine.loadWorkspaceState i.readable).1 = .error er)
      rw [hl] at he
      cases he
  · intro er (he : i.lock = .error er)
    rw [h.locked] at he
    cases he

theorem run_succeeds_iff (h : StopsOtherwise i) (hf : machine.file = some st)
    {outcome : ForwardingStopOutcome} :
    (∃ out fin, i.run machine = (some (.ok out), fin) ∧ out.forwarding = outcome) ↔
      i.forwarding st.active = .ok outcome := by
  have hs := serves_downWorkspace h hf
  unfold Serves at hs
  unfold Invocation.run
  split at hs
  · next out fin hr =>
    rw [hs,hr]
    constructor
    · rintro ⟨_,_,⟨⟩,rfl⟩
      rfl
    · rintro ⟨⟩
      exact ⟨out,fin,rfl,rfl⟩
  · next er fin hr =>
    refine iff_of_false ?_ (hs outcome)
    rintro ⟨_,_,hr',-⟩
    rw [hr] at hr'
    cases hr'
  · exact hs.elim

/-- `down` takes the supervisor for stopped unless both files were left. -/
theorem stops_iff {production : ProductionImageRebuild} {stateFile : Option StateFile}
    {socket : Bool} {i : Invocation ForwardingSupervisorError L E} (h : StopsOtherwise i)
    (hf : machine.file = some st)
    (hst : i.forwarding = scopedStop production (.absent stateFile socket)) :
    (∃ out fin, i.run machine = (some (.ok out), fin) ∧
      (out.forwarding = .stopped ∨ out.forwarding = .missing)) ↔
      st.active = none ∨ stateFile = none ∨ socket = false := by
  have hc : (∃ out fin, i.run machine = (some (.ok out), fin) ∧
      (out.forwarding = .stopped ∨ out.forwarding = .missing)) ↔
      i.forwarding st.active = .ok .stopped ∨ i.forwarding st.active = .ok .missing := by
    rw [← run_succeeds_iff h hf,← run_succeeds_iff h hf]
    constructor
    · rintro ⟨out,fin,hr,hs | hm⟩
      · exact .inl ⟨out,fin,hr,hs⟩
      · exact .inr ⟨out,fin,hr,hm⟩
    · rintro (⟨out,fin,hr,hs⟩ | ⟨out,fin,hr,hm⟩)
      · exact ⟨out,fin,hr,.inl hs⟩
      · exact ⟨out,fin,hr,.inr hm⟩
  rw [hc,hst]
  cases st.active with
  | none => simp [scopedStop]
  | some active =>
    unfold scopedStop SupervisorRuntime.stop
    cases stateFile with
    | none => simp [SupervisorRuntime.incomplete]
    | some file =>
      cases socket with
      | false => simp [SupervisorRuntime.incomplete]
      | true =>
        refine iff_of_false ?_ (by simp)
        simp only [SupervisorRuntime.incomplete,SupervisorRuntime.stopSupervisor,
          Reply.deliver,Option.isNone_some,Bool.not_true,Bool.or_self,Bool.false_eq_true,if_false]
        split_ifs
        all_goals rintro (h | h) <;> cases h

end down

/-- After the crash `up` starts a replacement, and `down` takes the supervisor for stopped. -/
structure Recovers {L E : Type} (production : ProductionImageRebuild) (outside : Outside)
    (facts : EnvironmentFacts) (ports : PortPlan) (previous : Option ActiveForwarding)
    (replacement : SupervisorManifest) (i : Invocation ForwardingSupervisorError L E)
    (machine : Machine Unit) (left : SupervisorRuntime) : Prop where
  up : ∃ forwarding, Steps.Yields (production.reconcileForwarding outside facts ports previous) left
    forwarding (.live replacement true)
  down : ∃ outcome final, i.run machine = (some (.ok outcome), final) ∧
    (outcome.forwarding = .stopped ∨ outcome.forwarding = .missing)

/-- Both commands cope exactly with a crash that left no socket and, as state file, nothing
or a manifest. -/
theorem recovers_iff {L E : Type} {production : ProductionImageRebuild} {outside : Outside}
    {facts : EnvironmentFacts} {ports : PortPlan} {desired : List DeclaredForward}
    {manifest : SupervisorManifest} {previous : Option ActiveForwarding}
    {i : Invocation ForwardingSupervisorError L E} {state : WorkspaceState}
    (stateFile : Option StateFile) (socket : Bool)
    (hup : Undisturbed production outside facts ports desired manifest) (hdown : StopsOtherwise i)
    (hstop : i.forwarding = scopedStop production (.absent stateFile socket)) :
    Recovers production outside facts ports previous
        (outside.lease.elim manifest manifest.withCredentialLease) i ⟨some state,()⟩
        (.absent stateFile socket) ↔
      socket = false ∧ ∀ claim, stateFile ≠ some (.state claim) := by
  constructor
  · intro hr
    exact (yields_reconcileForwarding hup).mp hr.up
  · rintro ⟨hs,hst⟩
    exact ⟨(yields_reconcileForwarding hup).mpr ⟨hs,hst⟩,
      (stops_iff hdown rfl hstop).mpr (.inr (.inr hs))⟩

section sample
variable (stateFile : Option StateFile) (socket : Bool)

def sampleProduction : ProductionImageRebuild :=
  ⟨sampleToken,.sample,sampleToken,sampleToken⟩

def samplePorts : PortPlan where
  forwards := [⟨.sample,none,.containerLoopback,.sample,{}⟩]

/-- Every call succeeds, and the supervisor listens where it was asked to. -/
def sampleOutside : Outside where
  answers _ := .done
  provisioned := ⟨"/opt/cdenv/agent",sampleToken,⟨1,Nat.one_pos⟩⟩
  lease := none
  listeners := [loopback .sample]

def sampleFacts : EnvironmentFacts := ⟨.sample,.sample,.x8664,.first⟩

def sampleManifest : SupervisorManifest where
  claim := sampleProduction.claim .first sampleToken ⟨1,Nat.one_pos⟩
  container := sampleFacts.container
  agentPath := "/opt/cdenv/agent"
  forwards := [⟨.sample,false,"localhost",.sample⟩]
  credentialLease := none

def sampleDown : Invocation ForwardingSupervisorError Unit Unit :=
  { WorkspaceDown.idleDown with
    forwarding := scopedStop sampleProduction (.absent stateFile socket) }

theorem undisturbed_sample : Undisturbed sampleProduction sampleOutside sampleFacts samplePorts
    [declaredForward ⟨.sample,none,.containerLoopback,.sample,{}⟩] sampleManifest :=
  ⟨fun _ => rfl,rfl,rfl,rfl,rfl⟩

theorem stopsOtherwise_sample : StopsOtherwise (sampleDown stateFile socket) where
  stopping := rfl
  locked := rfl
  readable := rfl
  written _ := rfl
  alive _ := rfl
  lifecycle _ := ⟨.notRunning,rfl,nofun⟩
  environment _ := ⟨.missing,rfl⟩

end sample

/-- A start that was killed before it opened its socket. -/
theorem recovers_from_manifest :
    Recovers sampleProduction sampleOutside sampleFacts samplePorts none sampleManifest
        (sampleDown (some .manifest) false) ⟨some (sampleState (sampleActive .first .sample)),()⟩
        (.absent (some .manifest) false) ↔
      false = false ∧ ∀ claim, some StateFile.manifest ≠ some (.state claim) :=
  recovers_iff (some .manifest) false undisturbed_sample (stopsOtherwise_sample _ _) rfl

/-- Killed while it served: neither command gets past what it left. -/
theorem stuck_after_crash :
    ¬Recovers sampleProduction sampleOutside sampleFacts samplePorts none sampleManifest
        (sampleDown (some (.state sampleManifest.claim)) true)
        ⟨some (sampleState (sampleActive .first .sample)),()⟩
        (.absent (some (.state sampleManifest.claim)) true) ∧
      ∃ failures final, (sampleDown (some (.state sampleManifest.claim)) true).run
        ⟨some (sampleState (sampleActive .first .sample)),()⟩ =
          (some (.error (.incomplete failures)), final) := by
  refine ⟨?_,_,_,rfl⟩
  intro hre
  obtain ⟨forwarding,hr,-⟩ := hre.up
  have he : (sampleProduction.reconcileForwarding sampleOutside sampleFacts samplePorts none
    (.absent (some (.state sampleManifest.claim)) true)).result = .error (.supervisor .control) := rfl
  cases hr

end Cdenv.SupervisorRecovery
