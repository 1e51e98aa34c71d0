import Mathlib.Data.List.Nodup
import Mathlib.Data.List.Range
import Cdenv.AgentLifecycle

/-!
# The state directory of the lifecycle runner

Calls on one state directory may be killed at any of their questions, any write may fail
before or after the rename that makes it durable, and a group may come to any result. A probe
whose access fails says that its file is not there. This module gives the answers of that
world to single questions, and what a checkpoint in it says about the log.
-/
namespace Cdenv.AgentLifecycle
open TextScan Fallible Interaction Program List

/-- The steps of `atomic_write_in` at which it may fail. -/
inductive WriteStage where
  | createTemporary | write | syncFile | rename | openParent | syncParent

/-- The rename has been made. -/
def WriteStage.takesEffect : WriteStage → Bool
  | .openParent | .syncParent => true
  | .createTemporary | .write | .syncFile | .rename => false

/-- A command group by its offsets in the plan. -/
structure Group where
  (stage command : ℕ)

inductive GroupEvent where
  | started (group : Group)
  | succeeded (group : Group)

/-- The log says which groups were started and which succeeded, in their order. -/
structure World where
  file : Option LifecycleRunnerState
  (cancel locked : Bool)
  log : List GroupEvent
  clock : ℕ

def World.fresh : World := ⟨none,false,false,[],0⟩

inductive Fate where
  | survives | killedBefore | killedAfter
deriving DecidableEq

/-- What happens around one question. -/
structure Moment where
  fate : Fate := .survives
  writeFailure : Option WriteStage := none
  accessFailure : Option AccessFailure := none
  /-- The probe for the checkpoint cannot look. -/
  stateUnseen : Bool := false
  /-- The probe for the request to stop cannot look. -/
  cancelUnseen : Bool := false
  environmentFails : Bool := false
  execution : Except ExecutionFailure Unit := .ok ()
  /-- Another process asks for cancellation. -/
  cancelArrives : Bool := false
  /-- Another process has the lock. -/
  lockTaken : Bool := false

def Moment.access (m : Moment) : Except AccessFailure Unit :=
  match m.accessFailure with
  | none => .ok ()
  | some failure => .error failure

def Moment.write (m : Moment) : Except Unit Unit :=
  match m.writeFailure with
  | none => .ok ()
  | some _ => .error ()

def Moment.takesEffect (m : Moment) : Bool := m.writeFailure.all (·.takesEffect)

def Moment.events (m : Moment) (group : Group) : List GroupEvent :=
  match m.execution with
  | .ok () => [.started group,.succeeded group]
  | .error _ => [.started group]

/-- What the directory answers at the moment. -/
def Moment.answer (m : Moment) : (q : RunnerCall) → World → RunnerAnswer q × World
  | .prepareDirectory, w | .openLock, w => (m.access, w)
  | .tryLock, w => (!w.locked && !m.lockTaken, { w with locked := w.locked || !m.lockTaken })
  | .unlock, w => ((), { w with locked := false })
  | .stateExists, w => (w.file.isSome && !m.stateUnseen, w)
  | .loadState, w =>
    (match m.accessFailure, w.file with
      | some failure, _ => .error failure
      | none, none => .error .io
      | none, some state => .ok state, w)
  | .storeState state, w =>
    (m.write, if m.takesEffect then { w with file := some state } else w)
  | .loadEnvironment, w => (if m.environmentFails then .error () else .ok (), w)
  | .cancelExists, w => (w.cancel && !m.cancelUnseen, w)
  | .executeCommand stageIndex commandIndex _, w =>
    (m.execution, { w with log := w.log++m.events ⟨stageIndex,commandIndex⟩ })
  | .removeCancel, w => ((), { w with cancel := false })
  | .writeCancel, w => (m.write, if m.takesEffect then { w with cancel := true } else w)
  | .terminate _, w => ((), w)

/-- The world when the question of this moment is asked. -/
def World.tick (w : World) (m : Moment) : World :=
  { w with clock := w.clock+1, cancel := w.cancel || m.cancelArrives }

abbrev Course := ℕ → Moment

def server (course : Course) : Server World RunnerAnswer := fun q w =>
  let m := course w.clock
  let w := w.tick m
  match m.fate with
  | .survives => (some (m.answer q w).1, (m.answer q w).2)
  | .killedBefore => (none, w)
  | .killedAfter => (none, (m.answer q w).2)

inductive Call where
  | run (pid : ℕ) (course : Course)
  | cancel (polls : ℕ) (course : Course)

/-- The probe for the checkpoint can look. -/
def Course.Sees (course : Course) : Prop := ∀ n, (course n).stateUnseen = false

/-- Only a run probes for the checkpoint. -/
def Call.Sees : Call → Prop
  | .run _ course => course.Sees
  | .cancel _ _ => True

section
variable (agent : Agent) (request : LifecycleRunRequest)

/-- The locks of a process end with it. -/
def World.unlocked (w : World) : World := { w with locked := false }

def runCall (pid : ℕ) (course : Course) (w : World) :
    Option (Except LifecycleError LifecycleRunnerState) × World :=
  serve (server course) (runLifecycle agent pid request) w.unlocked

def perform (w : World) : Call → World
  | .run pid course => (runCall agent request pid course w).2
  | .cancel polls course =>
    (serve (server course) (cancelLifecycle agent polls request) w.unlocked).2

def performAll (w : World) (calls : List Call) : World := calls.foldl (perform agent request) w

def commandCount (stage : ℕ) : ℕ := request.stages[stage]?.elim 0 (·.commands.length)

def groupsBefore (g : Group) : List Group :=
  ((List.range g.stage).flatMap fun stage => (List.range (commandCount request stage)).map
    (⟨stage,·⟩))++(List.range g.command).map (⟨g.stage,·⟩)

/-- Groups that were started and succeeded one after the other. -/
def history (groups : List Group) : List GroupEvent :=
  groups.flatMap fun g => [.started g,.succeeded g]

def starts (log : List GroupEvent) : List Group :=
  log.filterMap fun
    | .started g => some g
    | .succeeded _ => none

/-- A group is started only when all groups before it in the plan have succeeded. -/
def InOrder (log : List GroupEvent) : Prop :=
  Throughout (fun earlier e => ∀ g, e = .started g →
    ∀ g' ∈ groupsBefore request g, .succeeded g' ∈ earlier) log

variable {request}

theorem groupsBefore_succ_command (i j : ℕ) :
    groupsBefore request ⟨i,j+1⟩ = groupsBefore request ⟨i,j⟩++[⟨i,j⟩] := by
  simp [groupsBefore,range_succ]

theorem groupsBefore_succ_stage (i : ℕ) :
    groupsBefore request ⟨i+1,0⟩ = groupsBefore request ⟨i,commandCount request i⟩ := by
  simp [groupsBefore,range_succ]

/-- Induction along the plan: group by group, and from the end of a stage to the next. -/
theorem plan_induction {P : Group → Prop} (hf : P ⟨0,0⟩) (hc : ∀ i j, P ⟨i,j⟩ → P ⟨i,j+1⟩)
    (hs : ∀ i, P ⟨i,commandCount request i⟩ → P ⟨i+1,0⟩) (g : Group) : P g := by
  obtain ⟨i,j⟩ := g
  induction i generalizing j with
  | zero =>
    induction j with
    | zero => exact hf
    | succ j ih => exact hc 0 j ih
  | succ i ihstage =>
    induction j with
    | zero => exact hs i (ihstage _)
    | succ j ih => exact hc (i+1) j ih

variable {g : Group}

theorem precedes_of_mem {g' : Group} (h : g' ∈ groupsBefore request g) :
    g'.stage < g.stage ∨ g'.stage = g.stage ∧ g'.command < g.command := by
  simp only [groupsBefore,mem_append,mem_flatMap,mem_map,mem_range] at h
  rcases h with ⟨i,hi,j,-,rfl⟩ | ⟨j,hj,rfl⟩
  · exact .inl hi
  · exact .inr ⟨rfl,hj⟩

theorem nodup_groupsBefore (g : Group) : (groupsBefore request g).Nodup := by
  induction g using @plan_induction request with
  | hf => exact nodup_nil
  | hc i j ih =>
    rw [groupsBefore_succ_command]
    refine List.Nodup.append ih (nodup_singleton _) ?_
    rw [disjoint_singleton]
    intro hm
    have hlt := precedes_of_mem hm
    omega
  | hs i ih =>
    rw [groupsBefore_succ_stage]
    exact ih

theorem history_concat (gs : List Group) (g : Group) :
    history (gs++[g]) = history gs++[.started g]++[.succeeded g] := by
  simp [history]

theorem starts_history (groups : List Group) : starts (history groups) = groups := by
  induction groups with
  | nil => rfl
  | cons g xs ih => simpa [history,starts] using ih

theorem succeeded_mem_history {groups : List Group} (h : g ∈ groups) :
    .succeeded g ∈ history groups :=
  mem_flatMap.mpr ⟨g,h,by simp⟩

/-- The next group of the plan may follow a history of all groups before it. -/
theorem inOrder_started (h : InOrder request (history (groupsBefore request g))) :
    InOrder request (history (groupsBefore request g)++[.started g]) := by
  refine throughout_concat.mpr ⟨h,?_⟩
  intro g' heq g'' hm
  cases heq
  exact succeeded_mem_history hm

variable {log : List GroupEvent}

theorem InOrder.succeeded (h : InOrder request log) : InOrder request (log++[.succeeded g]) :=
  throughout_concat.mpr ⟨h,fun _ heq => by cases heq⟩

theorem inOrder_history (g : Group) : InOrder request (history (groupsBefore request g)) := by
  induction g using @plan_induction request with
  | hf => exact throughout_nil
  | hc i j ih =>
    rw [groupsBefore_succ_command,history_concat]
    exact (inOrder_started ih).succeeded
  | hs i ih =>
    rw [groupsBefore_succ_stage]
    exact ih

def LifecycleRunnerState.group (state : LifecycleRunnerState) : Group :=
  ⟨state.stageIndex,state.commandIndex⟩

/-- All groups before the checkpoint have succeeded. Its own group may have been started, and
may have succeeded, unless a runner would start it. -/
structure Fits (request : LifecycleRunRequest) (state : LifecycleRunnerState)
    (log : List GroupEvent) : Prop where
  plan : state.plan = request
  within : state.commandIndex ≤ commandCount request state.stageIndex
  log : log = history (groupsBefore request state.group) ∨
    ¬(state.phase = .before ∨ state.phase = .after) ∧
      (log = history (groupsBefore request state.group)++[.started state.group] ∨
        log = history (groupsBefore request state.group)++[.started state.group] ++
          [.succeeded state.group])

/-- The checkpoint, if there is one, fits the log. -/
def World.Recorded (request : LifecycleRunRequest) (w : World) : Prop :=
  match w.file with
  | none => w.log = []
  | some state => Fits request state w.log

/-- A runner may start the group of its checkpoint. -/
structure World.At (request : LifecycleRunRequest) (state : LifecycleRunnerState) (w : World) :
    Prop where
  file : w.file = some state
  plan : state.plan = request
  within : state.commandIndex ≤ commandCount request state.stageIndex
  log : w.log = history (groupsBefore request state.group)

variable {state : LifecycleRunnerState}

theorem Fits.inOrder (h : Fits request state log) : InOrder request log ∧ (starts log).Nodup := by
  have hn := @nodup_groupsBefore request ⟨state.stageIndex,state.commandIndex+1⟩
  rw [groupsBefore_succ_command] at hn
  rcases h.log with rfl | ⟨-,rfl | rfl⟩
  · refine ⟨inOrder_history _,?_⟩
    rw [starts_history]
    exact nodup_groupsBefore _
  · refine ⟨inOrder_started (inOrder_history _),?_⟩
    rw [starts,filterMap_append,← starts,starts_history]
    exact hn
  · refine ⟨(inOrder_started (inOrder_history _)).succeeded,?_⟩
    rw [← history_concat,starts_history]
    exact hn

end

def World.reply (course : Course) (q : RunnerCall) (w : World) : RunnerAnswer q × World :=
  (course w.clock).answer q (w.tick (course w.clock))

/-- Checkpoint and log are the same. -/
abbrev World.Same (w' w : World) : Prop := w'.file = w.file ∧ w'.log = w.log

section
variable {c : Course} {w : World} {K : World → Prop} {F : LifecycleError → World → Prop}
variable {q : RunnerCall}

theorem serves_question {I : RunnerAnswer q → World → Prop}
    (hk : (c w.clock).fate ≠ .survives → K (w.tick (c w.clock)) ∧ K (w.reply c q).2)
    (ha : I (w.reply c q).1 (w.reply c q).2) :
    Serves (server c) K I F (call q) w := by
  rw [serves_call]
  cases hf : (c w.clock).fate with
  | survives => simpa only [server,World.reply,hf] using ha
  | killedBefore => simpa only [server,World.reply,hf] using (hk (hf ▸ nofun)).1
  | killedAfter => simpa only [server,World.reply,hf] using (hk (hf ▸ nofun)).2

theorem Moment.loadState_eq_ok {m : Moment} (h : (m.answer .loadState w).1 = .ok state) :
    w.file = some state := by
  simp only [Moment.answer] at h
  split at h
  · cases h
  · cases h
  · rename_i hf
    cases h
    exact hf

variable {I : Unit → World → Prop}

/-- A write leaves the new checkpoint or, unless it succeeds, perhaps the old one. -/
theorem serves_storeState (hk : (c w.clock).fate ≠ .survives → ∀ w', w'.log = w.log →
      w'.file = w.file ∨ w'.file = some state → K w')
    (hs : ∀ w', w'.log = w.log → w'.file = some state → I () w')
    (hfl : (c w.clock).writeFailure ≠ none → ∀ w', w'.log = w.log →
      w'.file = w.file ∨ w'.file = some state → F .stateIo w') :
    Serves (server c) K I F (storeState state) w := by
  have hl : ∀ m : Moment, (m.answer (.storeState state) (w.tick m)).2.log = w.log := by
    intro m
    simp only [Moment.answer]
    split_ifs <;> rfl
  have hfi : ∀ m : Moment, (m.answer (.storeState state) (w.tick m)).2.file = w.file ∨
      (m.answer (.storeState state) (w.tick m)).2.file = some state := by
    intro m
    simp only [Moment.answer]
    split_ifs
    · exact .inr rfl
    · exact .inl rfl
  refine serves_expect (serves_question (q := .storeState state)
    (fun hfa => ⟨hk hfa _ rfl (.inl rfl),hk hfa _ (hl _) (hfi _)⟩) ⟨?_,?_⟩)
  · intro u hok
    cases hf : (c w.clock).writeFailure with
    | none =>
      refine hs _ (hl _) ?_
      simp [World.reply,Moment.answer,Moment.takesEffect,hf]
    | some stg => simp [World.reply,Moment.answer,Moment.write,hf] at hok
  · intro u he
    refine hfl ?_ _ (hl _) (hfi _)
    intro hf
    simp [World.reply,Moment.answer,Moment.write,hf] at he

/-- The question leaves checkpoint and log alone. -/
def Quiet (q : RunnerCall) : Prop :=
  ∀ m w, (Moment.answer m q w).2.file = w.file ∧ (Moment.answer m q w).2.log = w.log

def isQuiet : RunnerCall → Bool
  | .storeState _ | .executeCommand _ _ _ => false
  | _ => true

theorem quiet_of_isQuiet (h : isQuiet q = true) : Quiet q := by
  intro m w
  cases q with
  | storeState | executeCommand => cases h
  | writeCancel =>
    simp only [Moment.answer]
    split_ifs <;> exact ⟨rfl,rfl⟩
  | _ => exact ⟨rfl,rfl⟩

theorem World.Recorded.of_same {request : LifecycleRunRequest} {w' : World}
    (h : w.Recorded request) (hs : w'.Same w) : w'.Recorded request := by
  unfold World.Recorded at h ⊢
  rw [hs.1,hs.2]
  exact h

end

/-- Cut off, failed or returned, the program leaves a record that fits. -/
abbrev Safely {α : Type} (request : LifecycleRunRequest) (course : Course)
    (I : α → World → Prop) (m : Runner α) (w : World) : Prop :=
  Serves (server course) (World.Recorded request) I (fun _ => World.Recorded request) m w

section
variable {request : LifecycleRunRequest} {c : Course} {w : World}
variable {state : LifecycleRunnerState}

theorem safely_quiet {I : RunnerAnswer q → World → Prop} (hq : isQuiet q = true)
    (h : w.Recorded request) (hI : ∀ w' : World, w'.Same w → I (w.reply c q).1 w') :
    Safely request c I (call q) w := by
  have hs := quiet_of_isQuiet hq (c w.clock) (w.tick (c w.clock))
  exact serves_question (fun _ => ⟨h.of_same ⟨rfl,rfl⟩,h.of_same hs⟩) (hI _ hs)

theorem World.recorded_of_file (hf : w.file = some state) (h : Fits request state w.log) :
    w.Recorded request := by
  unfold World.Recorded
  rw [hf]
  exact h

/-- A write keeps the record if both what was there and what is written fit the log. -/
theorem safely_storeState (ho : w.Recorded request) (hn : Fits request state w.log)
    (hI : ∀ w', w'.file = some state → w'.log = w.log → I () w') :
    Safely request c I (storeState state) w := by
  have hr : ∀ w' : World, w'.log = w.log → w'.file = w.file ∨ w'.file = some state →
      w'.Recorded request := by
    intro w' hl hf
    rcases hf with hf | hf
    · exact ho.of_same ⟨hf,hl⟩
    · exact World.recorded_of_file hf (hl ▸ hn)
  exact serves_storeState (fun _ => hr) (fun w' hl hf => hI w' hf hl) fun _ => hr

end
end Cdenv.AgentLifecycle
