import Cdenv.WorkspaceRecord

/-!
# Enumerating the workspaces

Enumeration reads the file of a workspace and then samples its lock, while a foreground
command may go on.
-/
namespace Cdenv.WorkspaceEnumeration
open EventRun Identity WorkspaceRecord

inductive PersistedOperationStatus where
  | idle
  | active (operation : ForegroundOperation)
  | interrupted (operation : ForegroundOperation)
deriving DecidableEq

inductive LockError where
  | managedPath | missing | open | contended | acquire

/-- The lock file when it is looked at. -/
inductive LockFile where
  | missing
  | rejected
  | unusable (error : LockError)
  | present (held : Bool)

namespace LockFile

def inspect : LockFile → Except LockError Unit
  | missing => .error .missing
  | rejected => .error .managedPath
  | unusable _ | present _ => .ok ()

/-- An exclusive lock, or a failure at once. -/
def tryAcquire (file : LockFile) : Except LockError Unit := do
  file.inspect
  match file with
  | unusable error => .error error
  | present true => .error .contended
  | _ => .ok ()

end LockFile

def classifyPersistedOperation (operation : ForegroundOperation) (lock : LockFile) :
    Except LockError PersistedOperationStatus :=
  if operation = .idle then do
    lock.inspect
    return .idle
  else
    match lock.tryAcquire with
    | .ok () => .ok (.interrupted operation)
    | .error .contended => .ok (.active operation)
    | .error error => .error error

inductive StateError where
  | missing | corrupt | other
  | newerSchema (found supported : ℕ)
  | unsupportedOlderSchema (found : ℕ)

structure LoadedWorkspaceState where
  name : WorkspaceName
  operation : ForegroundOperation

inductive WorkspaceEntryStatus where
  | valid (loaded : LoadedWorkspaceState) (operation : PersistedOperationStatus)
  | missingState | corrupt | unsafePath
  | newerSchema (found supported : ℕ)
  | unsupportedOlderSchema (found : ℕ)

/-- The state as it is loaded first, and the lock as it is tried after that. -/
def enumerateOne (file : Except StateError LoadedWorkspaceState) (lock : LockFile)
    (expectedName : WorkspaceName) : WorkspaceEntryStatus :=
  match file with
  | .error .missing => .missingState
  | .error (.newerSchema found supported) => .newerSchema found supported
  | .error (.unsupportedOlderSchema found) => .unsupportedOlderSchema found
  | .error .corrupt => .corrupt
  | .error .other => .unsafePath
  | .ok loaded =>
    if loaded.name ≠ expectedName then .corrupt
    else
      match classifyPersistedOperation loaded.operation lock with
      | .ok operation => .valid loaded operation
      | .error _ => .unsafePath

inductive Phase where
  | waiting | holding | finished
deriving DecidableEq

/-- The recorded operation, and how far the command has come with the lock. -/
structure Command where
  operation : ForegroundOperation
  phase : Phase

namespace Command

def start : Command := ⟨.idle,.waiting⟩

inductive Event where
  | acquire
  | persist (operation : ForegroundOperation)
  | release
deriving DecidableEq

/-- The command records operations under the lock, and gives it back once it has recorded
that it is idle. -/
def step (command : Command) : Event → Option Command
  | .acquire => if command.phase = .waiting then some { command with phase := .holding } else none
  | .persist operation =>
    if command.phase = .holding then some { command with operation } else none
  | .release =>
    if command.phase = .holding ∧ command.operation = .idle then
      some { command with phase := .finished } else none

def lock (command : Command) : LockFile := .present (command.phase = .holding)

variable {s t : Command} {events : List Event}

theorem holding_of_operation (h : run step start events = some s) (hs : s.operation ≠ .idle) :
    s.phase = .holding := by
  have hin : s.operation = .idle ∨ s.phase = .holding := by
    refine run_invariant (I := fun s => s.operation = .idle ∨ s.phase = .holding) ?_ (.inl rfl) h
    intro s e t _ ht
    cases e with
    | acquire | persist operation =>
      obtain ⟨hp,⟨⟩⟩ := Option.ite_none_right_eq_some.mp ht
      first | exact .inr rfl | exact .inr hp
    | release =>
      obtain ⟨⟨-,hi⟩,⟨⟩⟩ := Option.ite_none_right_eq_some.mp ht
      exact .inl hi
  exact hin.resolve_left hs

theorem phase_of_finished (hs : s.phase = .finished) (h : run step s events = some t) :
    t.phase = .finished := by
  refine run_invariant (I := fun s => s.phase = .finished) (fun s e t hs ht => ?_) hs h
  cases e <;> simp [step,hs] at ht

/-- A command that holds the lock keeps it until it releases it, and for good. -/
theorem holding_iff (hs : s.phase = .holding) (h : run step s events = some t) :
    t.phase = .holding ↔ .release ∉ events := by
  induction events generalizing s with
  | nil => cases h; simp [hs]
  | cons e xs ih =>
    obtain ⟨u,hu,hr⟩ := run_cons.mp h
    cases e with
    | acquire => simp [step,hs] at hu
    | persist op =>
      obtain ⟨-,⟨⟩⟩ := Option.ite_none_right_eq_some.mp hu
      rw [ih (s := ⟨op,s.phase⟩) hs hr]
      simp
    | release =>
      obtain ⟨-,⟨⟩⟩ := Option.ite_none_right_eq_some.mp hu
      simp [phase_of_finished rfl hr]

end Command

open Command

variable {name : WorkspaceName} {before between : List Event} {s t : Command}

/-- Enumeration takes no operation of the command for interrupted, unless it reads the operation
and the command releases the lock before enumeration tries it. -/
theorem enumerateOne_uninterrupted_iff (hs : run step start before = some s)
    (ht : run step s between = some t) :
    (∀ loaded operation, enumerateOne (.ok ⟨name,s.operation⟩) t.lock name ≠
      .valid loaded (.interrupted operation)) ↔ s.operation = .idle ∨ .release ∉ between := by
  simp only [enumerateOne,classifyPersistedOperation,ne_eq,not_true_eq_false,if_false]
  by_cases hi : s.operation = .idle
  · rw [if_pos hi]
    exact iff_of_true (fun _ _ h => by cases h) (.inl hi)
  · rw [if_neg hi,← holding_iff (holding_of_operation hs hi) ht]
    simp only [hi,false_or,Command.lock]
    cases hp : t.phase with
    | holding => exact iff_of_true (fun _ _ h => by cases h) rfl
    | waiting | finished => exact iff_of_false (fun h => h _ _ rfl) nofun

/-- The command finishes after enumeration has read its operation. -/
theorem finished_taken_for_interrupted : ∃ s t loaded,
    run step start [.acquire,.persist .starting] = some s ∧
      run step s [.persist .idle,.release] = some t ∧
      enumerateOne (.ok ⟨⟨"app",by decide⟩,s.operation⟩) t.lock ⟨"app",by decide⟩ =
        .valid loaded (.interrupted .starting) :=
  ⟨_,_,_,rfl,rfl,rfl⟩

theorem enumerateOne_uninterrupted_running :
    run step start [.acquire,.persist .starting] = some ⟨.starting,.holding⟩ ∧
    ∀ loaded operation, enumerateOne (.ok ⟨⟨"app",by decide⟩,.starting⟩) (.present true)
      ⟨"app",by decide⟩ ≠ .valid loaded (.interrupted operation) :=
  ⟨rfl,(@enumerateOne_uninterrupted_iff ⟨"app",by decide⟩ [.acquire,.persist .starting]
    [.persist .starting] ⟨.starting,.holding⟩ ⟨.starting,.holding⟩ rfl rfl).mpr (by decide)⟩

end Cdenv.WorkspaceEnumeration
