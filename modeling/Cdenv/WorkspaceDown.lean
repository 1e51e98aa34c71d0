import Cdenv.EventRun
import Cdenv.Interaction
import Cdenv.WorkspaceRecord

/-!
# Stopping a workspace

`down` writes that it is stopping, stops forwarding, background lifecycle work and the
environment in this order, whatever fails, and writes the outcome. What an earlier
operation left behind is classified before the first write, and only the outcome of this
call carries the classification, so a later call can report it only if no earlier one got
as far as its first write.

A call may be killed at any question, after the question has taken effect.
-/
namespace Cdenv.WorkspaceDown
open TextScan Fallible WorkspaceRecord Interaction Program

inductive ForwardingStopOutcome where
  | stopped | missing | degraded

inductive LifecycleStopOutcome where
  | notRunning | graceful | forced | indeterminate
deriving DecidableEq

inductive EnvironmentStopOutcome where
  | stopped | alreadyStopped | missing
deriving DecidableEq

inductive InterruptedOperationRecovery where
  | none
  | recoverable (operation : ForegroundOperation)
  | retained (operation : ForegroundOperation)

def classifyInterruptedOperation (operation : ForegroundOperation)
    (lifecycleIndeterminate : Bool) : InterruptedOperationRecovery :=
  match operation with
  | .idle => .none
  | .stopping => .recoverable .stopping
  | .starting => if lifecycleIndeterminate then .retained .starting else .recoverable .starting
  | operation => .retained operation

inductive DownWarning where
  | forwardingMissing | forwardingDegraded | lifecycleForced | environmentMissing
  | priorOperationInterrupted (operation : ForegroundOperation)

structure StopFailures (F L E : Type) where
  forwarding : Option F
  lifecycle : Option L
  environment : Option E
  lifecycleIndeterminate : Bool

structure DownOutcome where
  forwarding : ForwardingStopOutcome
  lifecycle : LifecycleStopOutcome
  environment : EnvironmentStopOutcome
  recovery : InterruptedOperationRecovery
  warnings : List DownWarning

inductive DownError (F L E : Type) where
  | invalidOperation | lock
  | state (source : WorkspaceStateError)
  | incomplete (failures : StopFailures F L E)
  | failureRecord (failures : StopFailures F L E) (state : WorkspaceStateError)

/-- The adapters, the lock and the two writes are the outside. -/
inductive DownCall where
  | acquireLock | loadWorkspaceState
  | persistWorkspaceState (state : WorkspaceState)
  | stopForwarding (active : Option ActiveGeneration)
  | cancelLifecycle (active : Option ActiveGeneration)
  | stopEnvironment (active : Option ActiveGeneration)

variable {F L E : Type}

abbrev DownAnswer (F L E : Type) : DownCall → Type
  | .acquireLock => Except Unit Unit
  | .loadWorkspaceState => Except WorkspaceStateError WorkspaceState
  | .persistWorkspaceState _ => Except WorkspaceStateError Unit
  | .stopForwarding _ => Except F ForwardingStopOutcome
  | .cancelLifecycle _ => Except L LifecycleStopOutcome
  | .stopEnvironment _ => Except E EnvironmentStopOutcome

abbrev Down (F L E : Type) := Program (DownAnswer F L E) (DownError F L E)

section calls

def acquireLock : Down F L E (Except Unit Unit) := call DownCall.acquireLock

def loadWorkspaceState : Down F L E (Except WorkspaceStateError WorkspaceState) :=
  call DownCall.loadWorkspaceState

def persistWorkspaceState (state : WorkspaceState) : Down F L E (Except WorkspaceStateError Unit) :=
  call (DownCall.persistWorkspaceState state)

def stopForwarding (active : Option ActiveGeneration) :
    Down F L E (Except F ForwardingStopOutcome) := call (DownCall.stopForwarding active)

def cancelLifecycle (active : Option ActiveGeneration) :
    Down F L E (Except L LifecycleStopOutcome) := call (DownCall.cancelLifecycle active)

def stopEnvironment (active : Option ActiveGeneration) :
    Down F L E (Except E EnvironmentStopOutcome) := call (DownCall.stopEnvironment active)

end calls

def StopFailures.isEmpty (failures : StopFailures F L E) : Bool :=
  failures.forwarding.isNone && failures.lifecycle.isNone && failures.environment.isNone &&
    !failures.lifecycleIndeterminate

def failed {ε α : Type} : Except ε α → Option ε
  | .ok _ => none
  | .error e => some e

/-- The operation as its debug form prints it. -/
def operationName : ForegroundOperation → Text
  | .idle => "Idle"
  | .creating => "Creating"
  | .starting => "Starting"
  | .rebuilding => "Rebuilding"
  | .stopping => "Stopping"
  | .locking => "Locking"

/-- The phases that failed, or the interruption that was found. -/
def failureSummary (successful : Bool) (recovery : InterruptedOperationRecovery)
    (failures : StopFailures F L E) : Option SanitizedSummary :=
  if successful then
    match recovery with
    | .retained operation => some (.redact ("previous ".toList++operationName operation ++
        " operation was interrupted".toList))
    | _ => none
  else
    let phases :=
      (if failures.forwarding.isSome then ["forwarding".toList] else []) ++
      (if failures.lifecycle.isSome || failures.lifecycleIndeterminate then ["lifecycle".toList]
        else []) ++
      (if failures.environment.isSome then ["environment".toList] else [])
    some (.redact ("down incomplete during ".toList++List.intercalate ", ".toList phases))

def warnings (forwarding : ForwardingStopOutcome) (lifecycle : LifecycleStopOutcome)
    (environment : EnvironmentStopOutcome) (recovery : InterruptedOperationRecovery) :
    List DownWarning :=
  (match forwarding with
    | .stopped => []
    | .missing => [.forwardingMissing]
    | .degraded => [.forwardingDegraded]) ++
  (if lifecycle = .forced then [.lifecycleForced] else []) ++
  (if environment = .missing then [.environmentMissing] else []) ++
  (match recovery with
    | .retained operation => [.priorOperationInterrupted operation]
    | _ => [])

/-- Without failures all three results are outcomes, so the last two branches are one. -/
def finishDown (state : WorkspaceState) (recovery : InterruptedOperationRecovery)
    (forwarding : Except F ForwardingStopOutcome) (lifecycle : Except L LifecycleStopOutcome)
    (environment : Except E EnvironmentStopOutcome) : Down F L E DownOutcome := do
  let failures : StopFailures F L E := ⟨failed forwarding,failed lifecycle,failed environment,
    match lifecycle with
    | .ok outcome => outcome == .indeterminate
    | .error _ => false⟩
  let state := (state.setOperation .idle).setLastError
    (failureSummary failures.isEmpty recovery failures)
  expect (persistWorkspaceState state) fun source => .failureRecord failures source
  match failures.isEmpty, forwarding, lifecycle, environment with
  | true, .ok forwarding, .ok lifecycle, .ok environment =>
    return ⟨forwarding,lifecycle,environment,recovery,
      warnings forwarding lifecycle environment recovery⟩
  | _, _, _, _ => fail (.incomplete failures)

def recordLifecycleStopped (state : WorkspaceState)
    (lifecycle : Except L LifecycleStopOutcome) : WorkspaceState :=
  match lifecycle with
  | .ok outcome =>
    { state with active := state.active.map fun active =>
        { active with lifecycle := { active.lifecycle with
            running := none
            indeterminate := active.lifecycle.indeterminate || outcome == .indeterminate } } }
  | .error _ => state

def stopPhases (state : WorkspaceState) (recovery : InterruptedOperationRecovery) :
    Down F L E DownOutcome := do
  let forwarding ← stopForwarding state.active
  let lifecycle ← cancelLifecycle state.active
  let state := recordLifecycleStopped state lifecycle
  let environment ← stopEnvironment state.active
  finishDown state recovery forwarding lifecycle environment

def announcement (operation : OperationState) (state : WorkspaceState) : WorkspaceState :=
  (state.setOperation operation).setLastError none

def recoveryOf (state : WorkspaceState) : InterruptedOperationRecovery :=
  classifyInterruptedOperation state.operation.kind
    (state.active.any (·.lifecycle.indeterminate))

def downWorkspace (operation : OperationState) : Down F L E DownOutcome := do
  if operation.kind ≠ .stopping then
    fail .invalidOperation
  else
    expect acquireLock fun _ => .lock
    let state ← expect loadWorkspaceState .state
    expect (persistWorkspaceState (announcement operation state)) .state
    stopPhases (announcement operation state) (recoveryOf state)

/-- One call of `down` with everything that happens to it. Each question is asked at most
once, so the answers and the place where the call is killed are functions of the question. -/
structure Invocation (F L E : Type) where
  operation : OperationState
  lock : Except Unit Unit
  readable : Bool
  writeFailure : WorkspaceState → Option AtomicWriteStage
  forwarding : Option ActiveGeneration → Except F ForwardingStopOutcome
  lifecycle : Option ActiveGeneration → Except L LifecycleStopOutcome
  environment : Option ActiveGeneration → Except E EnvironmentStopOutcome
  killedAt : DownCall → Bool

namespace Invocation

def answer (i : Invocation F L E) : (q : DownCall) → Machine Unit → DownAnswer F L E q × Machine Unit
  | .acquireLock, machine => (i.lock, machine)
  | .loadWorkspaceState, machine => machine.loadWorkspaceState i.readable
  | .persistWorkspaceState state, machine =>
    machine.persistWorkspaceState state (i.writeFailure state)
  | .stopForwarding active, machine => (i.forwarding active, machine)
  | .cancelLifecycle active, machine => (i.lifecycle active, machine)
  | .stopEnvironment active, machine => (i.environment active, machine)

def server (i : Invocation F L E) : Server (Machine Unit) (DownAnswer F L E) := fun q machine =>
  (if i.killedAt q then none else some (i.answer q machine).1, (i.answer q machine).2)

def run (i : Invocation F L E) (machine : Machine Unit) :
    Option (Except (DownError F L E) DownOutcome) × Machine Unit :=
  serve i.server (downWorkspace i.operation) machine

/-- The call gets as far as replacing the operation in the file. -/
structure Announces (i : Invocation F L E) (state : WorkspaceState) : Prop where
  stopping : i.operation.kind = .stopping
  locked : i.lock = .ok ()
  holding : i.killedAt .acquireLock = false
  readable : i.readable = true
  loaded : i.killedAt .loadWorkspaceState = false
  written : AtomicWrite.takesEffect (i.writeFailure (announcement i.operation state)) = true

end Invocation

section
variable {i : Invocation F L E} {state : WorkspaceState} {machine : Machine Unit}

theorem serves_server {K : Machine Unit → Prop} {G : DownError F L E → Machine Unit → Prop}
    {q : DownCall} {I : DownAnswer F L E q → Machine Unit → Prop}
    (hk : i.killedAt q = true → K (i.answer q machine).2)
    (ha : i.killedAt q = false → I (i.answer q machine).1 (i.answer q machine).2) :
    Serves i.server K I G (call q) machine := by
  rw [serves_call]
  unfold Invocation.server
  cases hq : i.killedAt q with
  | true => exact hk hq
  | false => exact ha hq

/-- The file does not name an operation that `down` would report. -/
def Settled (machine : Machine Unit) : Prop :=
  ∃ state, machine.file = some state ∧
    (state.operation.kind = .stopping ∨ state.operation.kind = .idle)

theorem Settled.persist {e : Option AtomicWriteStage} (h : Settled machine)
    (hs : state.operation.kind = .stopping ∨ state.operation.kind = .idle) :
    Settled (machine.persistWorkspaceState state e).2 := by
  unfold Settled
  rw [Machine.file_persistWorkspaceState]
  split_ifs
  · exact ⟨state,rfl,hs⟩
  · exact h

/-- A successful call reports what it was given. -/
def Carries (recovery : InterruptedOperationRecovery) (outcome : DownOutcome) : Prop :=
  outcome.recovery = recovery ∧
    outcome.warnings = warnings outcome.forwarding outcome.lifecycle outcome.environment recovery

variable {recovery : InterruptedOperationRecovery} {after : Machine Unit}

theorem serves_finishDown {forwarding : Except F ForwardingStopOutcome}
    {lc : Except L LifecycleStopOutcome} {env : Except E EnvironmentStopOutcome}
    (h : Settled machine) :
    Serves i.server Settled (fun out machine => Settled machine ∧ Carries recovery out)
      (fun _ => Settled) (finishDown state recovery forwarding lc env) machine := by
  unfold finishDown
  rw [serves_bind]
  refine serves_expect (serves_server (q := .persistWorkspaceState _)
    (fun _ => h.persist (.inr rfl)) fun _ => ⟨?_,?_⟩)
  · intro _ _
    split
    · exact ⟨h.persist (.inr rfl),rfl,rfl⟩
    · exact h.persist (.inr rfl)
  · intro _ _
    exact h.persist (.inr rfl)

theorem serves_stopPhases (h : Settled machine) :
    Serves i.server Settled (fun out machine => Settled machine ∧ Carries recovery out)
      (fun _ => Settled) (stopPhases state recovery) machine := by
  unfold stopPhases
  rw [serves_bind]
  refine serves_server (q := .stopForwarding _) (fun _ => h) fun _ => ?_
  rw [serves_bind]
  refine serves_server (q := .cancelLifecycle _) (fun _ => h) fun _ => ?_
  rw [serves_bind]
  exact serves_server (q := .stopEnvironment _) (fun _ => h) fun _ => serves_finishDown h

/-- What a call leaves: either it did not announce itself, then the file is as it was and
the call did not succeed; or the file names no operation to report any more. -/
def Left (i : Invocation F L E) (state : WorkspaceState)
    (result : Option (Except (DownError F L E) DownOutcome)) (machine : Machine Unit) : Prop :=
  (¬i.Announces state ∧ machine.file = some state ∧ ∀ outcome, result ≠ some (.ok outcome)) ∨
    (i.Announces state ∧ Settled machine ∧
      ∀ outcome, result = some (.ok outcome) → Carries (recoveryOf state) outcome)

theorem left_of_not_announces (h : machine.file = some state) (hn : ¬i.Announces state)
    {r : Option (Except (DownError F L E) DownOutcome)}
    (hr : ∀ out, r ≠ some (.ok out)) : Left i state r machine :=
  .inl ⟨hn,h,hr⟩

/-- Once the announcement is in the file, nothing that follows brings the operation back. -/
theorem serves_announced (ha : i.Announces state) (haf : Settled after) :
    Serves i.server (Left i state none) (fun out => Left i state (some (.ok out)))
      (fun er => Left i state (some (.error er)))
      (stopPhases (announcement i.operation state) (recoveryOf state)) after := by
  apply Serves.mono _ _ _ (serves_stopPhases haf)
  · intro machine hs
    exact .inr ⟨ha,hs,nofun⟩
  · rintro out machine ⟨hs,hc⟩
    refine .inr ⟨ha,hs,?_⟩
    rintro out ⟨⟩
    exact hc
  · intro er machine hs
    exact .inr ⟨ha,hs,nofun⟩

theorem serves_announcement (h : machine.file = some state)
    (han : AtomicWrite.takesEffect (i.writeFailure (announcement i.operation state)) = true →
      i.Announces state) :
    Serves i.server (Left i state none) (fun out => Left i state (some (.ok out)))
      (fun er => Left i state (some (.error er)))
      (do
        expect (persistWorkspaceState (announcement i.operation state)) .state
        stopPhases (announcement i.operation state) (recoveryOf state)) machine := by
  have hf : (machine.persistWorkspaceState (announcement i.operation state)
    (i.writeFailure (announcement i.operation state))).2.file = _ :=
    Machine.file_persistWorkspaceState
  rw [serves_bind]
  by_cases hw : AtomicWrite.takesEffect (i.writeFailure (announcement i.operation state)) = true
  · have ha := han hw
    rw [if_pos hw] at hf
    have hs : Settled _ := ⟨_,hf,.inl ha.stopping⟩
    refine serves_expect (serves_server (q := .persistWorkspaceState _) ?_ fun _ => ⟨?_,?_⟩)
    · intro _
      exact .inr ⟨ha,hs,nofun⟩
    · intro _ _
      exact serves_announced ha hs
    · intro _ _
      exact .inr ⟨ha,hs,nofun⟩
  · rw [if_neg hw,h] at hf
    have hn : ¬i.Announces state := fun ha => hw ha.written
    refine serves_expect (serves_server (q := .persistWorkspaceState _) ?_ fun _ => ⟨?_,?_⟩)
    · intro _
      exact left_of_not_announces hf hn nofun
    · intro _ hok
      have hno := (Machine.persistWorkspaceState_eq_ok.mp (Prod.ext hok rfl)).1
      rw [hno] at hw
      exact absurd rfl hw
    · intro _ _
      exact left_of_not_announces hf hn nofun

theorem left_run (i : Invocation F L E) (h : machine.file = some state) :
    Left i state (i.run machine).1 (i.run machine).2 := by
  apply Serves.serve
  unfold downWorkspace
  split_ifs with hki
  · exact left_of_not_announces h (fun ha => hki ha.stopping) nofun
  · rw [serves_bind]
    refine serves_expect (serves_server (q := .acquireLock) ?_ fun holding => ⟨?_,?_⟩)
    · intro hk
      exact left_of_not_announces h (fun ha => nomatch hk.symm.trans ha.holding) nofun
    · rintro ⟨⟩ (hlo : i.lock = .ok ())
      rw [serves_bind]
      refine serves_expect (serves_server (q := .loadWorkspaceState) ?_ fun hla => ⟨?_,?_⟩)
      · intro hk
        exact left_of_not_announces h (fun ha => nomatch hk.symm.trans ha.loaded) nofun
      · intro fs (hl : (machine.loadWorkspaceState i.readable).1 = .ok fs)
        obtain ⟨hr,hf,-⟩ := Machine.loadWorkspaceState_eq_ok.mp (Prod.ext hl rfl)
        obtain rfl := Option.some.inj (h.symm.trans hf)
        exact serves_announcement h fun hw => ⟨not_not.mp hki,hlo,holding,hr,hla,hw⟩
      · intro er (hl : (machine.loadWorkspaceState i.readable).1 = .error er)
        refine left_of_not_announces h (fun ha => ?_) nofun
        have hfo := Machine.loadWorkspaceState_eq_ok.mpr ⟨ha.readable,h,rfl⟩
        rw [hfo] at hl
        cases hl
    · intro er hlo
      exact left_of_not_announces h (fun ha => nomatch hlo.symm.trans ha.locked) nofun

/-- A call that does not succeed, as a step of the file. -/
def attempt (machine : Machine Unit) (i : Invocation F L E) : Option (Machine Unit) :=
  match i.run machine with
  | (some (.ok _), _) => none
  | (_, after) => some after

theorem attempt_eq_some (h : attempt machine i = some after) : (i.run machine).2 = after := by
  unfold attempt at h
  split at h
  · cases h
  · next hr => exact (congrArg Prod.snd hr).trans (Option.some.inj h)

theorem settled_attempt (hs : Settled machine) (h : attempt machine i = some after)
    : Settled after := by
  obtain ⟨state,hf,hk⟩ := hs
  rw [← attempt_eq_some h]
  rcases left_run i hf with ⟨-,hsa,-⟩ | ⟨-,hs,-⟩
  · exact ⟨state,hsa,hk⟩
  · exact hs

/-- Until a call announces itself the file stays; from then on it is settled. -/
theorem run_attempts {failed : List (Invocation F L E)} {start : Machine Unit}
    (hst : start.file = some state) (h : EventRun.run attempt start failed = some machine) :
    ((∀ i ∈ failed, ¬i.Announces state) ∧ machine.file = some state) ∨
      ((∃ i ∈ failed, i.Announces state) ∧ Settled machine) := by
  induction failed generalizing start with
  | nil =>
    cases h
    exact .inl ⟨nofun,hst⟩
  | cons fst xs ih =>
    obtain ⟨next,hfi,hr⟩ := EventRun.run_cons.mp h
    have hl := left_run fst hst
    rw [attempt_eq_some hfi] at hl
    rcases hl with ⟨hno,hf,-⟩ | ⟨ha,hs,-⟩
    · rcases ih hf hr with ⟨hn,hf⟩ | ⟨⟨i,hi,ha⟩,hs⟩
      · exact .inl ⟨List.forall_mem_cons.mpr ⟨hno,hn⟩,hf⟩
      · exact .inr ⟨⟨i,List.mem_cons_of_mem _ hi,ha⟩,hs⟩
    · refine .inr ⟨⟨fst,List.mem_cons_self,ha⟩,?_⟩
      exact EventRun.run_invariant (fun _ _ _ => settled_attempt) hs hr

/-- The outcome says that an earlier operation was interrupted. -/
def Reports (outcome : DownOutcome) : Prop :=
  ∃ operation, .priorOperationInterrupted operation ∈ outcome.warnings

theorem mem_warnings {forwarding : ForwardingStopOutcome} {lc : LifecycleStopOutcome}
    {env : EnvironmentStopOutcome} {operation : ForegroundOperation} :
    .priorOperationInterrupted operation ∈ warnings forwarding lc env recovery ↔
      recovery = .retained operation := by
  have hi : ∀ (c : Prop) [Decidable c] (fst second : List DownWarning),
      .priorOperationInterrupted operation ∈ (if c then fst else second) ↔
        if c then .priorOperationInterrupted operation ∈ fst
        else .priorOperationInterrupted operation ∈ second := by
    intro c _ fst second
    split_ifs <;> exact Iff.rfl
  unfold warnings
  cases recovery with
  | none | recoverable b => cases forwarding <;> simp [hi]
  | retained b => cases forwarding <;> simp [hi,eq_comm]

theorem Carries.reports_iff {out : DownOutcome} (h : Carries recovery out)
    : Reports out ↔ ∃ operation, recovery = .retained operation := by
  unfold Reports
  rw [h.2]
  exact exists_congr fun _ => mem_warnings

/-- The first call that succeeds reports the interrupted operation exactly if no earlier
call got as far as its first write. -/
theorem reports_interrupted_iff {failed : List (Invocation F L E)} {last : Invocation F L E}
    {outcome : DownOutcome} {final : Machine Unit}
    (hinterrupted : state.operation.kind = .creating ∨ state.operation.kind = .rebuilding)
    (hfailed : EventRun.run attempt ⟨some state,()⟩ failed = some machine)
    (hlast : last.run machine = (some (.ok outcome), final)) :
    Reports outcome ↔ ∀ i ∈ failed, ¬i.Announces state := by
  have hc : ∀ fs, machine.file = some fs → Carries (recoveryOf fs) outcome := by
    intro fs hf
    have hl := left_run last hf
    rw [hlast] at hl
    rcases hl with ⟨-,-,hne⟩ | ⟨-,-,hc⟩
    · exact absurd rfl (hne outcome)
    · exact hc outcome rfl
  rcases run_attempts rfl hfailed with ⟨hn,hf⟩ | ⟨⟨i,hi,ha⟩,fs,hf,hk⟩
  · rw [(hc state hf).reports_iff]
    refine iff_of_true ?_ hn
    unfold recoveryOf
    rcases hinterrupted with hk | hk
    · exact ⟨.creating,by rw [hk]; rfl⟩
    · exact ⟨.rebuilding,by rw [hk]; rfl⟩
  · rw [(hc fs hf).reports_iff]
    refine iff_of_false ?_ fun hn => hn i hi ha
    unfold recoveryOf
    rcases hk with hk | hk
    all_goals
      rw [hk]
      nofun

end

def stoppingOperation : OperationState :=
  ⟨.stopping,some "stop",some "2026-01-01T00:00:00Z",by decide⟩

def interrupted : WorkspaceState where
  devcontainerProfile := sampleToken
  desiredDevcontainerConfig := ".devcontainer/devcontainer.json"
  desiredFingerprints := ⟨sampleDigest,sampleDigest,sampleDigest⟩
  lastUpAt := none
  operation := ⟨.creating,some "create",some "2026-01-01T00:00:00Z",by decide⟩
  lastError := none
  interruptedComposeRebuild := none
  active := none

def idleDown : Invocation Unit Unit Unit where
  operation := stoppingOperation
  lock := .ok ()
  readable := true
  writeFailure _ := none
  forwarding _ := .ok .missing
  lifecycle _ := .ok .notRunning
  environment _ := .ok .missing
  killedAt _ := false

theorem reports_interrupted_iff_first :
    Reports ⟨.missing,.notRunning,.missing,.retained .creating,[.forwardingMissing,
      .environmentMissing,.priorOperationInterrupted .creating]⟩ ↔
      ∀ i ∈ ([{ idleDown with lock := .error () }] : List (Invocation Unit Unit Unit)),
        ¬i.Announces interrupted :=
  @reports_interrupted_iff Unit Unit Unit interrupted ⟨some interrupted,()⟩ _ idleDown _ _
    (.inl rfl) rfl rfl

/-- The forwarding supervisor fails to stop once; the next call reports nothing. -/
theorem interruption_forgotten : ∃ machine outcome final, EventRun.run attempt ⟨some interrupted,()⟩
      [({ idleDown with forwarding := fun _ => .error () } : Invocation Unit Unit Unit)] =
        some machine ∧
      idleDown.run machine = (some (.ok outcome), final) ∧ ¬Reports outcome := by
  refine ⟨_,⟨.missing,.notRunning,.missing,.none,[.forwardingMissing,.environmentMissing]⟩,_,
    rfl,rfl,?_⟩
  rintro ⟨op,hw⟩
  simp at hw

end Cdenv.WorkspaceDown
