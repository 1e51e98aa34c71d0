import Cdenv.ContainerPath
import Cdenv.Interaction
import Cdenv.OrderedMap

/-!
# The lifecycle runner of the agent

Inside the container the agent runs the command groups of the lifecycle stages, one after
the other, and keeps a checkpoint in a file. A lock admits one runner for a generation, and
a file beside the checkpoint asks it to stop.
-/
namespace Cdenv.AgentLifecycle
open TextScan Fallible Interaction Program

inductive LifecycleValueSegment where
  | literal (value : Text)
  | containerEnvironment (name default : Text)
deriving DecidableEq

inductive LifecycleProcess where
  | shell (command : List LifecycleValueSegment)
  | exec (arguments : List (List LifecycleValueSegment))
deriving DecidableEq

inductive LifecycleCommand where
  | process (process : LifecycleProcess)
  | parallel (processes : OrderedMap Text LifecycleProcess)
deriving DecidableEq

inductive LifecycleStage where
  | onCreate | updateContent | postCreate | postStart | postAttach
deriving DecidableEq

def LifecycleStage.isOneTime : LifecycleStage → Bool
  | .postStart | .postAttach => false
  | .onCreate | .updateContent | .postCreate => true

def stageRank : LifecycleStage → ℕ
  | .onCreate => 0
  | .updateContent => 1
  | .postCreate => 2
  | .postStart => 3
  | .postAttach => 4

structure LifecycleStagePlan where
  stage : LifecycleStage
  commands : List LifecycleCommand
deriving DecidableEq

structure LifecycleRunRequest where
  (generation buildId : Text)
  protocolVersion : ℕ
  (stateDirectory environmentPath workspaceFolder : Text)
  (uid gid : ℕ)
  stages : List LifecycleStagePlan
deriving DecidableEq

inductive LifecyclePhase where
  | before | running | after | failed | indeterminate | cancelled | complete
deriving DecidableEq

/-- The checkpoint: which group is next, and whether it may already have been started. -/
structure LifecycleRunnerState where
  (generation buildId : Text)
  protocolVersion : ℕ
  plan : LifecycleRunRequest
  (stageIndex commandIndex : ℕ)
  phase : LifecyclePhase
  runnerPid : Option ℕ
  failure : Option Text

structure LifecycleInspection where
  state : LifecycleRunnerState
  runnerActive : Bool

inductive LifecycleError where
  | invalidRequest (field : String)
  | identityMismatch (field : String)
  | planMismatch | alreadyRunning | indeterminate
  | commandFailed (stage : LifecycleStage) (commandIndex : ℕ)
  | stateIo | unsafeState | environment

structure Agent where
  buildId : Text
  (protocolVersion euid egid : ℕ)

def validGeneration (value : Text) : Bool :=
  !value.isEmpty && value.length ≤ 128 &&
    value.all fun c => c.isAlphanum || c == '.' || c == '_' || c == '-'

/-- Absolute, not the root, and without `..`; empty and `.` components do not count. -/
def safeAbsolute (path : Text) : Bool :=
  path.head? == some '/' &&
    match ContainerPath.components (path.splitOn '/') with
    | .ok parts => !parts.isEmpty
    | .error _ => false

def validatePath (field : String) (path : Text) : Except LifecycleError Unit :=
  require (safeAbsolute path) (.invalidRequest field)

def ascending : Option ℕ → List LifecycleStagePlan → Bool
  | _, [] => true
  | previous, plan::rest =>
    previous.all (· < stageRank plan.stage) && ascending (some (stageRank plan.stage)) rest

/-- The request is for this agent and well formed. -/
def validateRequest (agent : Agent) (request : LifecycleRunRequest) :
    Except LifecycleError Unit := do
  require (request.buildId == agent.buildId) (.identityMismatch "buildId")
  require (request.protocolVersion == agent.protocolVersion) (.identityMismatch "protocolVersion")
  require (validGeneration request.generation) (.invalidRequest "generation")
  validatePath "stateDirectory" request.stateDirectory
  validatePath "environmentPath" request.environmentPath
  validatePath "workspaceFolder" request.workspaceFolder
  require (request.uid == agent.euid && request.gid == agent.egid) (.invalidRequest "user")
  require (ascending none request.stages) (.invalidRequest "stages")

inductive ExecutionFailure where
  | cancelled
  | error (reason : Text)

inductive AccessFailure where
  | io | unrestricted

def AccessFailure.toError : AccessFailure → LifecycleError
  | .io => .stateIo
  | .unrestricted => .unsafeState

/-- Everything that touches the file system, the lock or a child process. Values of the
environment are resolved when a group is executed, which is one question. -/
inductive RunnerCall where
  | prepareDirectory | openLock | tryLock | unlock | stateExists | loadState
  | storeState (state : LifecycleRunnerState)
  | loadEnvironment | cancelExists
  | executeCommand (stageIndex commandIndex : ℕ) (command : LifecycleCommand)
  | removeCancel | writeCancel
  | terminate (pid : ℕ)

@[reducible] def RunnerAnswer : RunnerCall → Type
  | .prepareDirectory | .openLock => Except AccessFailure Unit
  | .tryLock | .stateExists | .cancelExists => Bool
  | .loadState => Except AccessFailure LifecycleRunnerState
  | .storeState _ | .writeCancel | .loadEnvironment => Except Unit Unit
  | .executeCommand _ _ _ => Except ExecutionFailure Unit
  | .unlock | .removeCancel | .terminate _ => Unit

abbrev Runner (α : Type) := Program RunnerAnswer LifecycleError α

def prepareDirectory : Runner Unit :=
  expect (call RunnerCall.prepareDirectory) AccessFailure.toError

def openLock : Runner Unit :=
  expect (call RunnerCall.openLock) AccessFailure.toError

def tryLock : Runner Bool := call RunnerCall.tryLock

def loadState : Runner LifecycleRunnerState :=
  expect (call RunnerCall.loadState) AccessFailure.toError

def storeState (state : LifecycleRunnerState) : Runner Unit :=
  expect (call (RunnerCall.storeState state)) fun _ => .stateIo

def checked (result : Except LifecycleError Unit) : Runner Unit := .done result

def initialState (request : LifecycleRunRequest) : LifecycleRunnerState where
  generation := request.generation
  buildId := request.buildId
  protocolVersion := request.protocolVersion
  plan := request
  stageIndex := 0
  commandIndex := 0
  phase := .before
  runnerPid := none
  failure := none

def loadOrCreate (request : LifecycleRunRequest) : Runner LifecycleRunnerState := do
  let found ← (call RunnerCall.stateExists : Runner Bool)
  if found then loadState
  else
    storeState (initialState request)
    return initialState request

def currentStage (state : LifecycleRunnerState) : Option LifecycleStage :=
  state.plan.stages[state.stageIndex]?.map (·.stage)

/-- What a checkpoint that says `running` stands for when its runner is gone. -/
def abandonedPhase (state : LifecycleRunnerState) : LifecyclePhase :=
  if (currentStage state).any (·.isOneTime) then .indeterminate else .failed

def settleInterrupted (state : LifecycleRunnerState) : Runner LifecycleRunnerState :=
  if state.phase = .running then do
    let settled := { state with
      phase := abandonedPhase state, runnerPid := none, failure := some "interrupted" }
    storeState settled
    return settled
  else return state

/-- How a loop over command groups ends: the whole call returns, or the stage is through. -/
inductive Flow where
  | finished (state : LifecycleRunnerState)
  | through (state : LifecycleRunnerState)

/-- The cancellation file is looked for before each command. -/
def runCommands (stage : LifecycleStage) :
    List LifecycleCommand → LifecycleRunnerState → Runner Flow
  | [], state => return .through state
  | command::rest, state => do
    let cancelled ← (call RunnerCall.cancelExists : Runner Bool)
    if cancelled then
      let state := { state with phase := .cancelled, runnerPid := none }
      storeState state
      return .finished state
    else
      let state := { state with phase := .running }
      storeState state
      let result ← (call (RunnerCall.executeCommand state.stageIndex state.commandIndex command) :
        Runner (Except ExecutionFailure Unit))
      match result with
      | .ok () =>
        let state := { state with phase := .after, commandIndex := state.commandIndex+1 }
        storeState state
        runCommands stage rest state
      | .error .cancelled =>
        let state := { state with
          phase := if stage.isOneTime then .indeterminate else .cancelled
          runnerPid := none
          failure := some "cancelled" }
        storeState state
        if state.phase = .indeterminate then fail .indeterminate
        else return .finished state
      | .error (.error reason) =>
        let state := { state with
          phase := .failed, runnerPid := none, failure := some reason }
        storeState state
        fail (.commandFailed stage state.commandIndex)

def runStages : List LifecycleStagePlan → LifecycleRunnerState → Runner LifecycleRunnerState
  | [], state => do
    let state := { state with phase := .complete, runnerPid := none, failure := none }
    storeState state
    (call RunnerCall.removeCancel : Runner Unit)
    return state
  | plan::rest, state => do
    let flow ← runCommands plan.stage (plan.commands.drop state.commandIndex) state
    match flow with
    | .finished state => return state
    | .through state =>
      let state := { state with
        stageIndex := state.stageIndex+1, commandIndex := 0, phase := .before }
      storeState state
      runStages rest state

/-- `run_lifecycle` from the checkpoint that it has loaded or written. -/
def resume (pid : ℕ) (request : LifecycleRunRequest) (state : LifecycleRunnerState) :
    Runner LifecycleRunnerState := do
  if state.plan ≠ request then fail .planMismatch
  else
    let state ← settleInterrupted state
    if state.phase = .indeterminate then fail .indeterminate
    else if state.phase = .complete ∨ state.phase = .failed ∨ state.phase = .cancelled then
      return state
    else
      let state := { state with runnerPid := some pid }
      storeState state
      expect (call RunnerCall.loadEnvironment) fun _ => .environment
      runStages (request.stages.drop state.stageIndex) state

/-- The part of `run_lifecycle` that holds the lock. -/
def runLocked (pid : ℕ) (request : LifecycleRunRequest) : Runner LifecycleRunnerState := do
  let state ← loadOrCreate request
  resume pid request state

def runLifecycle (agent : Agent) (pid : ℕ) (request : LifecycleRunRequest) :
    Runner LifecycleRunnerState := do
  checked (validateRequest agent request)
  prepareDirectory
  openLock
  let locked ← tryLock
  if locked then (runLocked pid request).always .unlock
  else fail .alreadyRunning

/-- A probe that gets the lock drops it at once. -/
def probeLock : Runner Bool := do
  let locked ← tryLock
  if locked then
    (call RunnerCall.unlock : Runner Unit)
    return false
  else return true

def visibleState (state : LifecycleRunnerState) (runnerActive : Bool) : LifecycleRunnerState :=
  if state.phase = .running ∧ runnerActive = false then
    { state with phase := abandonedPhase state, runnerPid := none }
  else state

def inspectLifecycle (agent : Agent) (request : LifecycleRunRequest) :
    Runner LifecycleInspection := do
  checked (validateRequest agent request)
  prepareDirectory
  let state ← loadState
  if state.plan ≠ request then fail .planMismatch
  else
    openLock
    let runnerActive ← probeLock
    return ⟨visibleState state runnerActive,runnerActive⟩

/-- Look again until the runner is gone or the deadline has come after so many polls. -/
def awaitRunner (agent : Agent) (request : LifecycleRunRequest) : ℕ → Runner LifecycleInspection
  | 0 => do
    let inspection ← inspectLifecycle agent request
    if !inspection.runnerActive then return inspection
    else
      match inspection.state.runnerPid with
      | some pid =>
        (call (RunnerCall.terminate pid) : Runner Unit)
        inspectLifecycle agent request
      | none => inspectLifecycle agent request
  | polls+1 => do
    let inspection ← inspectLifecycle agent request
    if !inspection.runnerActive then return inspection
    else awaitRunner agent request polls

def cancelLifecycle (agent : Agent) (polls : ℕ) (request : LifecycleRunRequest) :
    Runner LifecycleInspection := do
  checked (validateRequest agent request)
  prepareDirectory
  expect (call RunnerCall.writeCancel) fun _ => .stateIo
  awaitRunner agent request polls

section sample

def sampleAgent : Agent := ⟨"build",1,1000,1000⟩

def sampleRequest : LifecycleRunRequest where
  generation := "1"
  buildId := "build"
  protocolVersion := 1
  stateDirectory := "/state"
  environmentPath := "/environment"
  workspaceFolder := "/workspace"
  uid := 1000
  gid := 1000
  stages := [⟨.onCreate,[.process (.shell [.literal "make"])]⟩]

end sample
end Cdenv.AgentLifecycle
