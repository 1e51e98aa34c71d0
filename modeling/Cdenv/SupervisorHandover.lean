import Cdenv.EventRun

/-!
# The handover between two forwarding supervisors

A supervisor acknowledges an authenticated request to go down and only then cleans up: its
guard removes the control socket and the state file, and last the lifetime lock is let go.
Whoever received the acknowledgement goes on to start a replacement at the same paths, and
after a failed start a second one with the earlier forwards. Nothing makes either side wait
for the other.

All supervisors run the same program, so a process is its position in that program, and an
interleaving is a list of events.
-/
namespace Cdenv.SupervisorHandover
open EventRun

inductive Attempt where
  | desired | rollback
deriving DecidableEq

inductive Party where
  | old
  | started (attempt : Attempt)
deriving DecidableEq

/-- Where a supervisor process stands in `run_private_supervisor_manifest`. -/
inductive Position where
  | waiting | spawned
  /-- The manifest is read. -/
  | prepared | locked
  /-- No socket was found, and the cleanup guard is in place. -/
  | guarded | bound | serving
  /-- The function returns: the guard is about to run. -/
  | closing | socketRemoved
  /-- Only the lifetime lock is left to be dropped. -/
  | cleaned | ended
deriving DecidableEq

@[grind] def Position.holdsLock : Position → Bool
  | .locked | .guarded | .bound | .serving | .closing | .socketRemoved | .cleaned => true
  | .waiting | .spawned | .prepared | .ended => false

@[grind] def Position.mayOwnSocket : Position → Bool
  | .bound | .serving | .closing => true
  | _ => false

/-- The position is one of a process that has returned from its control loop. -/
@[grind] def Position.returned : Position → Bool
  | .closing | .socketRemoved | .cleaned | .ended => true
  | _ => false

/-- What stands at the path of the state file: the manifest of a start, or the state that a
process has published. -/
inductive StateFile where
  | manifest (attempt : Attempt)
  | state (process : Party)
deriving DecidableEq

def StateFile.owner : StateFile → Party
  | .manifest attempt => .started attempt
  | .state process => process

inductive Harm where
  | stateFileRemoved (content : StateFile)
  | socketRemoved | refusedByLock | refusedBySocket
deriving DecidableEq

/-- A removal or a refusal that one process causes another. -/
structure Incident where
  (culprit victim : Party)
  harm : Harm
deriving DecidableEq

/-- Where `start_detached_supervisor` stands for the current attempt. -/
inductive Launcher where
  | acknowledged
  | written (attempt : Attempt)
  | launched (attempt : Attempt)
  /-- The desired start has failed; `wrote` tells whether its manifest was written. -/
  | abandoned (wrote : Bool)
deriving DecidableEq

/-- A manifest was written since the acknowledgement. -/
def Launcher.hasWritten : Launcher → Bool
  | .acknowledged => false
  | .abandoned wrote => wrote
  | .written _ | .launched _ => true

/-- The process of the attempt is still to be spawned. -/
def Launcher.mayLaunch : Launcher → Attempt → Bool
  | .acknowledged, _ | .written .desired, _ => true
  | .launched .desired, attempt | .abandoned _, attempt | .written .rollback, attempt =>
    attempt = .rollback
  | .launched .rollback, _ => false

structure Handover where
  position : Party → Position
  launcher : Launcher
  stateFile : Option StateFile
  (socket lock : Option Party)
  incidents : List Incident

/-- The acknowledgement has just been received. -/
def Handover.acknowledged : Handover where
  position
    | .old => .closing
    | .started _ => .waiting
  launcher := .acknowledged
  stateFile := some (.state .old)
  socket := some .old
  lock := some .old
  incidents := []

inductive Action where
  | readManifest | takeLock | checkSocket | bindSocket | publish
  /-- Some other step has failed, or the control loop has returned. -/
  | leave | removeSocket | removeState | releaseLock

/-- Every access to the socket, the state file or the lock is one event. -/
inductive Event where
  | write (attempt : Attempt)
  | spawn (attempt : Attempt)
  /-- The desired start fails, at the latest when its status does not come in time. -/
  | abandon
  | act (process : Party) (action : Action)

namespace Handover
variable (s : Handover)

def move (p : Party) (position : Position) : Handover :=
  { s with position := Function.update s.position p position }

def record (incidents : List Incident) : Handover :=
  { s with incidents := s.incidents++incidents }

/-- A removal is an incident when another process owns what is removed. -/
def removal (p : Party) : Option (Party × Harm) → List Incident
  | some (owner, harm) => if owner = p then [] else [⟨p,owner,harm⟩]
  | none => []

/-- `run_private_supervisor_manifest`, from one access of the runtime directory to the next. -/
def act (p : Party) (action : Action) : Option Handover :=
  match action, s.position p with
  | .readManifest, .spawned =>
    match s.stateFile with
    | some (.manifest _) => some (s.move p .prepared)
    | _ => some (s.move p .ended)
  | .takeLock, .prepared =>
    match s.lock with
    | some holder => some ((s.move p .ended).record [⟨holder,p,.refusedByLock⟩])
    | none => some { s.move p .locked with lock := some p }
  | .checkSocket, .locked =>
    match s.socket with
    | some owner => some ((s.move p .cleaned).record [⟨owner,p,.refusedBySocket⟩])
    | none => some (s.move p .guarded)
  | .bindSocket, .guarded =>
    match s.socket with
    | some _ => some (s.move p .closing)
    | none => some { s.move p .bound with socket := some p }
  | .publish, .bound => some { s.move p .serving with stateFile := some (.state p) }
  | .leave, .prepared => some (s.move p .ended)
  | .leave, .guarded | .leave, .bound | .leave, .serving => some (s.move p .closing)
  -- `SupervisorRuntimeCleanup::drop` removes whatever stands at its two paths.
  | .removeSocket, .closing =>
    let found := s.socket.map (·, .socketRemoved)
    some { (s.move p .socketRemoved).record (removal p found) with socket := none }
  | .removeState, .socketRemoved =>
    let found := s.stateFile.map fun content => (content.owner, .stateFileRemoved content)
    some { (s.move p .cleaned).record (removal p found) with stateFile := none }
  | .releaseLock, .cleaned => some { s.move p .ended with lock := none }
  | _, _ => none

/-- `reconcile_forwarding` after the acknowledgement. A write that fails leaves the state file
as it was. -/
def step : Event → Option Handover
  | .write attempt =>
    match attempt, s.launcher with
    | .desired, .acknowledged | .rollback, .abandoned _ =>
      some { s with launcher := .written attempt, stateFile := some (.manifest attempt) }
    | _, _ => none
  | .spawn attempt =>
    if s.launcher = .written attempt then
      some { s.move (.started attempt) .spawned with launcher := .launched attempt }
    else none
  | .abandon =>
    match s.launcher with
    | .acknowledged => some { s with launcher := .abandoned false }
    | .written .desired | .launched .desired => some { s with launcher := .abandoned true }
    | _ => none
  | .act process action => s.act process action

/-- The old supervisor has removed nothing of a replacement, and has kept none from starting. -/
def Undisturbed : Prop := ∀ incident ∈ s.incidents, incident.culprit ≠ .old

/-- The order that a handover needs: the old supervisor removes its state file before any
manifest is written there, and a replacement tries the lifetime lock after the old supervisor
has let it go. -/
def heeds : Event → Bool
  | .act .old .removeState => !s.launcher.hasWritten
  | .act (.started _) .takeLock => s.position .old == .ended
  | _ => true

/-- The lock is with the process that stands where it must hold it, the socket with one that
has bound it, and until the old supervisor has cleaned up nobody but the launcher has
touched the state file. -/
structure Consistent : Prop where
  lock : ∀ p, s.lock = some p ↔ (s.position p).holdsLock = true
  socket : ∀ p, s.socket = some p → (s.position p).mayOwnSocket = true
  returned : (s.position .old).returned = true
  unwritten : s.position .old ≠ .ended → s.position .old ≠ .cleaned →
    s.launcher.hasWritten = false → s.stateFile = some (.state .old)
  written : s.position .old ≠ .ended → s.position .old ≠ .cleaned →
    s.launcher.hasWritten = true → ∃ attempt, s.stateFile = some (.manifest attempt)
  waiting : ∀ attempt, s.launcher.mayLaunch attempt = true →
    s.position (.started attempt) = .waiting

theorem consistent_acknowledged : acknowledged.Consistent where
  lock p := by cases p <;> simp [acknowledged,Position.holdsLock]
  socket p := by cases p <;> simp [acknowledged,Position.mayOwnSocket]
  returned := rfl
  unwritten _ _ _ := rfl
  written _ _ h := by cases h
  waiting _ _ := rfl

variable {s} {t : Handover} {p q : Party} {action : Action} {next : Position} {position : Position}

theorem holdsLock_of_mayOwnSocket (h : position.mayOwnSocket = true) :
    position.holdsLock = true := by
  cases position <;> first | rfl | cases h

theorem eq_ended_of_returned (h : position.returned = true) (hl : position.holdsLock = false) :
    position = .ended := by
  cases position <;> simp_all [Position.returned,Position.holdsLock]

/-- The lock admits one process at a time. -/
theorem Consistent.eq_of_holdsLock (hs : s.Consistent) (hp : (s.position p).holdsLock = true)
    (hq : (s.position q).holdsLock = true) : p = q := by
  have hl := (hs.lock p).mpr hp
  rw [(hs.lock q).mpr hq] at hl
  exact (Option.some.inj hl).symm

/-- A socket that the holder of the lock finds is its own. -/
theorem Consistent.socket_owner (hs : s.Consistent) (hp : (s.position p).holdsLock = true)
    (hq : s.socket = some q) : q = p :=
  hs.eq_of_holdsLock (holdsLock_of_mayOwnSocket (hs.socket q hq)) hp

/-- Once a replacement has the lock, the old supervisor is gone. -/
theorem Consistent.old_ended (hs : s.Consistent) (hp : (s.position p).holdsLock = true)
    (hne : p ≠ .old) : s.position .old = .ended := by
  apply eq_ended_of_returned hs.returned
  by_contra ho
  exact hne (hs.eq_of_holdsLock hp (by simpa using ho))

/-- What a process may do on its way to the next position: it takes or drops its own part of
lock and socket, and leaves the state file alone until the old supervisor has cleaned up. -/
structure Proceeds (s : Handover) (p : Party) (next : Position) (t : Handover) : Prop where
  position : t.position = Function.update s.position p next
  started : s.position p ≠ .waiting
  launcher : t.launcher = s.launcher
  lock : t.lock = some p ↔ next.holdsLock = true
  lock_other : ∀ q, q ≠ p → (t.lock = some q ↔ s.lock = some q)
  socket : t.socket = some p → next.mayOwnSocket = true
  socket_other : ∀ q, q ≠ p → t.socket = some q → s.socket = some q
  returned : p = .old → next.returned = true
  stateFile : t.position .old ≠ .ended → t.position .old ≠ .cleaned →
    s.position .old ≠ .ended ∧ s.position .old ≠ .cleaned ∧ t.stateFile = s.stateFile

theorem Consistent.proceeds (hs : s.Consistent) (h : Proceeds s p next t) : t.Consistent where
  lock q := by
    by_cases hq : q = p
    · rw [hq,h.lock,h.position,Function.update_self]
    · rw [h.lock_other q hq,hs.lock,h.position,Function.update_of_ne hq]
  socket q hso := by
    by_cases hq : q = p
    · rw [hq] at hso ⊢
      rw [h.position,Function.update_self]
      exact h.socket hso
    · rw [h.position,Function.update_of_ne hq]
      exact hs.socket q (h.socket_other q hq hso)
  returned := by
    by_cases hp : .old = p
    · rw [h.position,← hp,Function.update_self]
      exact h.returned hp.symm
    · rw [h.position,Function.update_of_ne hp]
      exact hs.returned
  unwritten he hc hl := by
    obtain ⟨hb,hb',hf⟩ := h.stateFile he hc
    rw [hf]
    exact hs.unwritten hb hb' (h.launcher ▸ hl)
  written he hc hl := by
    obtain ⟨hb,hb',hf⟩ := h.stateFile he hc
    rw [hf]
    exact hs.written hb hb' (h.launcher ▸ hl)
  waiting attempt hla := by
    have hw := hs.waiting attempt (h.launcher ▸ hla)
    have hne : .started attempt ≠ p := by
      rintro rfl
      exact h.started hw
    rw [h.position,Function.update_of_ne hne]
    exact hw

theorem Consistent.ne_old (hs : s.Consistent) (h : (s.position p).returned = false) : p ≠ .old := by
  rintro rfl
  rw [hs.returned] at h
  cases h

/-- A replacement that only changes its position. -/
theorem Consistent.proceeds_idle (hs : s.Consistent) {pos : Position} (hpo : s.position p = pos)
    (hr : pos.returned = false) (hw : pos ≠ .waiting) (next : Position)
    (ht : t = { s.move p next with incidents := t.incidents })
    (hl : next.holdsLock = pos.holdsLock)
    (hso : pos.mayOwnSocket = true → next.mayOwnSocket = true) : ∃ next, Proceeds s p next t := by
  subst hpo
  have ho := hs.ne_old hr
  refine ⟨next,?_,hw,?_,?_,?_,fun h => hso (hs.socket p ?_),?_,fun h => absurd h ho,?_⟩
  · rw [ht]; rfl
  · rw [ht]; rfl
  · rw [ht,hl]; exact hs.lock p
  · intro q _
    rw [ht]; rfl
  · rwa [ht] at h
  · intro q _ h
    rwa [ht] at h
  · rw [ht]
    simp only [Handover.move,Function.update_of_ne ho.symm]
    exact fun he hc => ⟨he,hc,trivial⟩

theorem proceeds_act (hs : s.Consistent) (h : s.act p action = some t) :
    ∃ next, Proceeds s p next t := by
  have hlo := hs.lock
  have hso := hs.socket
  have hr := hs.returned
  have he := @Consistent.old_ended s p hs
  unfold act at h
  split at h
  case h_1 hpo =>
    split at h <;> cases h
    · exact hs.proceeds_idle hpo rfl nofun .prepared rfl rfl nofun
    · exact hs.proceeds_idle hpo rfl nofun .ended rfl rfl nofun
  case h_2 hpo =>
    split at h <;> cases h
    · exact hs.proceeds_idle hpo rfl nofun .ended rfl rfl nofun
    · simp only [Handover.move]
      refine ⟨.locked,rfl,?_,rfl,?_,?_,?_,?_,?_,?_⟩ <;> grind -linarith [Function.update_apply]
  case h_3 hpo =>
    split at h <;> cases h
    · exact hs.proceeds_idle hpo rfl nofun .cleaned rfl rfl nofun
    · exact hs.proceeds_idle hpo rfl nofun .guarded rfl rfl nofun
  case h_4 hpo =>
    split at h <;> cases h
    · exact hs.proceeds_idle hpo rfl nofun .closing rfl rfl nofun
    · simp only [Handover.move]
      refine ⟨.bound,rfl,?_,rfl,?_,?_,?_,?_,?_,?_⟩ <;> grind -linarith [Function.update_apply]
  case h_5 hpo =>
    cases h
    simp only [Handover.move]
    refine ⟨.serving,rfl,?_,rfl,?_,?_,?_,?_,?_,?_⟩ <;> grind -linarith [Function.update_apply]
  case h_6 hpo =>
    cases h
    exact hs.proceeds_idle hpo rfl nofun .ended rfl rfl nofun
  case h_7 hpo =>
    cases h
    exact hs.proceeds_idle hpo rfl nofun .closing rfl rfl nofun
  case h_8 hpo =>
    cases h
    exact hs.proceeds_idle hpo rfl nofun .closing rfl rfl fun _ => rfl
  case h_9 hpo =>
    cases h
    exact hs.proceeds_idle hpo rfl nofun .closing rfl rfl fun _ => rfl
  case h_10 hpo =>
    cases h
    simp only [Handover.move,record]
    refine ⟨.socketRemoved,rfl,?_,rfl,?_,?_,?_,?_,?_,?_⟩ <;> grind -linarith [Function.update_apply]
  case h_11 hpo =>
    cases h
    simp only [Handover.move,record]
    refine ⟨.cleaned,rfl,?_,rfl,?_,?_,?_,?_,?_,?_⟩ <;> grind -linarith [Function.update_apply]
  case h_12 hpo =>
    cases h
    simp only [Handover.move]
    refine ⟨.ended,rfl,?_,rfl,?_,?_,?_,?_,?_,?_⟩ <;> grind -linarith [Function.update_apply]
  case h_13 => cases h

theorem undisturbed_record {incidents : List Incident} : (s.record incidents).Undisturbed ↔
      s.Undisturbed ∧ ∀ incident ∈ incidents, incident.culprit ≠ .old := by
  simp only [Undisturbed,record,List.mem_append,or_imp,forall_and]

theorem culprit_removal {fs : Option (Party × Harm)} :
    (∀ incident ∈ removal p fs, incident.culprit ≠ .old) ↔
      (p = .old → ∀ owner harm, fs = some (owner, harm) → owner = .old) := by
  unfold removal
  split
  case h_1 owner harm =>
    split_ifs with ho
    · simpa using fun h : p = .old => ho.trans h
    · simp only [List.mem_singleton,forall_eq,Option.some.injEq,Prod.mk.injEq]
      constructor
      · intro hp h
        exact absurd h hp
      · intro h hp
        exact ho ((h hp owner harm ⟨rfl,rfl⟩).trans hp.symm)
  case h_2 => simp

/-- A refusal by the lock is the old supervisor's doing exactly while it has not ended. -/
theorem Consistent.refused_iff (hs : s.Consistent) :
    s.lock ≠ some .old ↔ s.position .old = .ended := by
  rw [ne_eq,hs.lock]
  constructor
  · intro h
    exact eq_ended_of_returned hs.returned (by simpa using h)
  · intro h
    rw [h]
    decide

/-- What the old supervisor finds at the path of its state file is its own exactly while no
manifest was written. -/
theorem Consistent.stateFile_owner (hs : s.Consistent) (h : s.position .old = .socketRemoved) :
    (∀ ct, s.stateFile = some ct → ct.owner = .old) ↔ s.launcher.hasWritten = false := by
  have he : s.position .old ≠ .ended := by rw [h]; decide
  have hc : s.position .old ≠ .cleaned := by rw [h]; decide
  constructor
  · intro ho
    by_contra hw
    obtain ⟨att,hf⟩ := hs.written he hc (by simpa using hw)
    cases ho _ hf
  · intro hl ct hf
    rw [hs.unwritten he hc hl] at hf
    cases hf
    rfl

theorem heeds_act : s.heeds (.act p action) = true ↔
      (action = .removeState → p = .old → s.launcher.hasWritten = false) ∧
        (action = .takeLock → p ≠ .old → s.position .old = .ended) := by
  cases p <;> cases action <;> simp [heeds]

/-- Only two actions can be the old supervisor's fault, and each is one exactly when it comes
out of order. -/
theorem undisturbed_act (hs : s.Consistent) (h : s.act p action = some t) :
    t.Undisturbed ↔ s.Undisturbed ∧ s.heeds (.act p action) = true := by
  rw [heeds_act]
  unfold act at h
  split at h
  case h_1 => split at h <;> cases h <;> simp [Undisturbed,Handover.move]
  case h_2 hpo =>
    have hol := hs.ne_old (by rw [hpo]; rfl)
    have he := hs.refused_iff
    split at h <;> rename_i hl <;> cases h
    · rw [undisturbed_record]
      simp_all [Undisturbed,Handover.move]
    · simp_all [Undisturbed,Handover.move]
  case h_3 hpo =>
    split at h <;> rename_i hso <;> cases h
    · -- The socket would be the looking process's own, which has bound none yet.
      have ho := hs.socket_owner (by rw [hpo]; rfl) hso
      have hb := hs.socket _ hso
      rw [ho,hpo] at hb
      cases hb
    · simp [Undisturbed,Handover.move]
  case h_4 => split at h <;> cases h <;> simp [Undisturbed,Handover.move]
  case h_10 hpo =>
    cases h
    have ho : ∀ ow harm, s.socket.map (·, Harm.socketRemoved) = some (ow, harm) → ow = p := by
      intro ow harm hf
      obtain ⟨q,hq,heq⟩ := Option.map_eq_some_iff.mp hf
      cases heq
      exact hs.socket_owner (by rw [hpo]; rfl) hq
    change ((s.move p .socketRemoved).record (removal p _)).Undisturbed ↔ _
    rw [undisturbed_record,culprit_removal]
    rw [iff_true_intro fun hp ow harm hf => (ho ow harm hf).trans hp]
    simp [Undisturbed,Handover.move]
  case h_11 hpo =>
    cases h
    change ((s.move p .cleaned).record (removal p _)).Undisturbed ↔ _
    rw [undisturbed_record,culprit_removal]
    have ho : (p = .old → ∀ ow harm, (s.stateFile.map fun ct =>
          (ct.owner, Harm.stateFileRemoved ct)) = some (ow, harm) → ow = .old) ↔
        (p = .old → s.launcher.hasWritten = false) := by
      refine forall_congr' fun hp => ?_
      rw [← hs.stateFile_owner (hp ▸ hpo)]
      constructor
      · intro h ct hfi
        exact h _ _ (by rw [hfi]; rfl)
      · intro h ow harm hf
        obtain ⟨ct,hfi,heq⟩ := Option.map_eq_some_iff.mp hf
        cases heq
        exact h ct hfi
    rw [ho]
    simp [Undisturbed,Handover.move]
  case h_13 => cases h
  all_goals cases h; simp [Undisturbed,Handover.move]

variable {e : Event}

section

variable (hs : s.Consistent)
include hs

theorem consistent_write {att : Attempt}
    (hw : ∀ b, (Launcher.written att).mayLaunch b = true → s.position (.started b) = .waiting) :
    Consistent { s with launcher := .written att, stateFile := some (.manifest att) } where
  lock := hs.lock
  socket := hs.socket
  returned := hs.returned
  unwritten _ _ h := by cases h
  written _ _ _ := ⟨att,rfl⟩
  waiting := hw

theorem consistent_abandon (hw : s.launcher.mayLaunch .rollback = true) :
    Consistent { s with launcher := .abandoned s.launcher.hasWritten } where
  lock := hs.lock
  socket := hs.socket
  returned := hs.returned
  unwritten := hs.unwritten
  written := hs.written
  waiting attempt h := by
    cases of_decide_eq_true h
    exact hs.waiting .rollback hw

/-- A spawned process has touched nothing yet. -/
theorem consistent_spawn {attempt : Attempt} (hl : s.launcher = .written attempt) :
    Consistent { s.move (.started attempt) .spawned with launcher := .launched attempt } := by
  have hw := hs.waiting attempt (by rw [hl]; cases attempt <;> rfl)
  have hlo : ∀ q, (Function.update s.position (.started attempt) .spawned q).holdsLock =
      (s.position q).holdsLock := by
    intro q
    by_cases hq : q = .started attempt
    · rw [hq,Function.update_self,hw]
      rfl
    · rw [Function.update_of_ne hq]
  have hol : Function.update s.position (.started attempt) .spawned .old = s.position .old :=
    Function.update_of_ne (by simp) _ _
  constructor
  case lock =>
    intro q
    exact (hs.lock q).trans (by rw [← hlo q]; rfl)
  case socket =>
    intro q hso
    have ho := hs.socket q hso
    have hq : q ≠ .started attempt := by
      rintro rfl
      rw [hw] at ho
      cases ho
    simpa only [Handover.move,Function.update_of_ne hq] using ho
  case returned => simpa only [Handover.move,hol] using hs.returned
  case unwritten => exact fun _ _ h => by cases h
  case written =>
    simp only [Handover.move,hol]
    exact fun he hc _ => hs.written he hc (by rw [hl]; rfl)
  case waiting =>
    intro b hla
    -- Only the rollback can still be to come, and then the process is the desired one.
    cases attempt with
    | rollback => cases hla
    | desired =>
      cases of_decide_eq_true hla
      exact hs.waiting .rollback (by rw [hl]; rfl)

theorem consistent_step (h : s.step e = some t) : t.Consistent := by
  cases e with
  | write att =>
    simp only [step] at h
    split at h
    case h_1 hl =>
      cases h
      exact consistent_write hs fun b _ => hs.waiting b (by rw [hl]; rfl)
    case h_2 wrote hl =>
      cases h
      refine consistent_write hs fun b ho => hs.waiting b ?_
      rw [hl]
      exact ho
    case h_3 => cases h
  | spawn att =>
    simp only [step] at h
    split_ifs at h with hl
    cases h
    exact consistent_spawn hs hl
  | abandon =>
    simp only [step] at h
    split at h
    case h_4 => cases h
    all_goals
      rename_i hl
      have ha := consistent_abandon hs (by rw [hl]; rfl)
      rw [hl] at ha
      cases h
      exact ha
  | act p action =>
    obtain ⟨next,hp⟩ := proceeds_act hs h
    exact hs.proceeds hp

theorem undisturbed_step (h : s.step e = some t) :
    t.Undisturbed ↔ s.Undisturbed ∧ s.heeds e = true := by
  cases e with
  | write att =>
    simp only [step] at h
    split at h <;> cases h <;> simp [Undisturbed,heeds]
  | spawn att =>
    simp only [step] at h
    split_ifs at h
    cases h
    simp [Undisturbed,heeds,Handover.move]
  | abandon =>
    simp only [step] at h
    split at h <;> cases h <;> simp [Undisturbed,heeds]
  | act p action => exact undisturbed_act hs h

/-- The run lemma: from a consistent state, no incident is added exactly if every event heeds
the order. -/
theorem undisturbed_run {schedule : List Event} (h : run step s schedule = some t) :
    t.Undisturbed ↔ s.Undisturbed ∧ Along step (fun s e => s.heeds e = true) s schedule := by
  induction schedule generalizing s with
  | nil =>
    cases h
    simp [Along]
  | cons e xs ih =>
    obtain ⟨u,hu,hr⟩ := run_cons.mp h
    rw [ih (consistent_step hs hu) hr,undisturbed_step hs hu,and_assoc,Along,hu]

end

end Handover

open Handover

/-- In every interleaving the old supervisor leaves its replacements alone exactly if it
removes its state file before a manifest is written and has ended before a replacement tries
the lock. -/
theorem undisturbed_iff {schedule : List Event} {final : Handover}
    (h : run step acknowledged schedule = some final) :
    final.Undisturbed ↔ Along step (fun s e => s.heeds e = true) acknowledged schedule := by
  rw [undisturbed_run consistent_acknowledged h,and_iff_right]
  intro incident hi
  cases hi

/-- The old supervisor ends, and only then the desired one is started and serves. -/
def orderly : List Event :=
  [.act .old .removeSocket,.act .old .removeState,.act .old .releaseLock,.write .desired,
    .spawn .desired,.act (.started .desired) .readManifest,.act (.started .desired) .takeLock,
    .act (.started .desired) .checkSocket,.act (.started .desired) .bindSocket,
    .act (.started .desired) .publish]

theorem undisturbed_orderly : ∃ final, run step acknowledged orderly = some final ∧
      final.position (.started .desired) = .serving ∧ final.Undisturbed :=
  ⟨_,rfl,rfl,(@undisturbed_iff orderly _ rfl).mpr (by decide)⟩

/-- A manifest written between acknowledgement and cleanup is removed, and a replacement that
is quicker than the cleanup is refused by the lock. -/
theorem disturbed_by_cleanup : (∃ final, run step acknowledged
        [.write .desired,.act .old .removeSocket,.act .old .removeState] = some final ∧
      final.stateFile = none ∧ ¬final.Undisturbed) ∧
    ∃ final, run step acknowledged [.write .desired,.spawn .desired,
        .act (.started .desired) .readManifest,.act (.started .desired) .takeLock] = some final ∧
      final.position (.started .desired) = .ended ∧ ¬final.Undisturbed := by
  refine ⟨⟨_,rfl,rfl,fun h => ?_⟩,⟨_,rfl,rfl,fun h => ?_⟩⟩
  · exact h ⟨.old,.started .desired,.stateFileRemoved (.manifest .desired)⟩ (by decide) rfl
  · exact h ⟨.old,.started .desired,.refusedByLock⟩ (by decide) rfl

end Cdenv.SupervisorHandover
