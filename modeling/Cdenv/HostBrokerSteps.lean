import Cdenv.HostBroker

/-!
# What one step of the host broker can do

Every invariant of the broker is derived from this module. For one event it lists where
each task, each frame on its way out, the loop's position and each written frame can
come from. The cases follow the transitions of the model; nothing else is used about
them later.
-/
namespace Cdenv.HostBroker
open BrokerProtocol Credentials CredentialBackend List

namespace Lookup

def Queues (lookup : Lookup) (queued : Option QueuedFrame) : Prop :=
  ∀ item, queued = some item → item.frame.streamId = lookup.request.streamId ∧
    (item.cause = .broker ∧ item.frame.kind = .error ∨
      item.cause = .lookup lookup.request lookup.captured ∧ item.frame.kind = .credentialResult)

variable {lookup next : Lookup} {queued : Option QueuedFrame} {c : Cause}
variable {auth : Option (BrokerFrameKind × ℕ)} {kind : BrokerFrameKind}

theorem queues_respond {pay : Bytes} (h : c = .broker ∧ kind = .error ∨
      c = .lookup lookup.request lookup.captured ∧ kind = .credentialResult)
    (hr : lookup.respond kind pay auth c = (next, queued)) :
    Queues lookup queued := by
  unfold respond at hr
  split at hr
  · next f hf =>
    cases hr
    intro x hi
    cases hi
    obtain ⟨hk,hid,-⟩ := BrokerFrame.new_eq_ok.mp hf
    rw [← hk] at h
    exact ⟨hid,h⟩
  · cases hr
    exact fun _ hi => nomatch hi

theorem queues_react {requestOrigin : Bytes → Option HttpsOrigin}
    {identity : CredentialLeaseIdentity} {be : LiveCredentialBackend} {event : LookupEvent}
    (h : lookup.react requestOrigin identity be event = some (next, queued)) :
    Queues lookup queued := by
  have hn : Queues lookup none := fun _ hi => nomatch hi
  have hr (h : some lookup.refuse = some (next, queued)) : Queues lookup queued :=
    queues_respond (.inl ⟨rfl,rfl⟩) (Option.some.inj h)
  unfold react at h
  split at h
  · split at h
    · split_ifs at h
      · cases h
        exact hn
      · exact hr h
    · exact hr h
  · split_ifs at h
    · cases h
      exact hn
    · exact hr h
  · exact hr h
  · split_ifs at h
    · exact queues_respond (.inr ⟨rfl,rfl⟩) (Option.some.inj h)
    · exact hr h
  · exact hr h
  · exact hr h
  · split_ifs at h
    exact hr h
  · split_ifs at h
    exact hr h
  · cases h

end Lookup

namespace Relay

/-- The causes of the packet a relay is busy with. -/
def phaseCauses (relay : Relay) : List Cause :=
  match relay.phase with
  | .writing cause _ | .reading cause _ => [cause]
  | _ => []

/-- The causes of everything a relay holds or has handed to its agent. -/
def causes (relay : Relay) : List Cause :=
  relay.inbox.map Prod.snd++relay.forwarded.map Prod.snd++relay.phaseCauses

variable {relay : Relay}

theorem mem_causes : c ∈ relay.causes ↔
    (∃ f, (f, c) ∈ relay.inbox) ∨ (∃ f, (f, c) ∈ relay.forwarded) ∨ c ∈ relay.phaseCauses := by
  simp only [causes,mem_append,mem_map,Prod.exists,exists_eq_right,or_assoc]

/-- A relay keeps its stream and takes on no new causes. What it queues is a close of its
stream, or the agent's response to a packet it holds. -/
structure Keeps (relay next : Relay) (queued : Option QueuedFrame) : Prop where
  streamId : next.streamId = relay.streamId
  opened : next.opened = relay.opened
  causes : ∀ cause ∈ next.causes, cause ∈ relay.causes
  queued : ∀ item, queued = some item → item.frame.streamId = relay.streamId ∧
    (item.cause = .broker ∧ item.frame.kind = .streamClose ∨
      item.cause ∈ relay.causes ∧ item.frame.kind = .streamData)

theorem Keeps.of_eq {next : Relay} {queued : Option QueuedFrame}
    {r : Relay × Option QueuedFrame} (h : Keeps relay r.1 r.2)
    (he : some r = some (next, queued)) : Keeps relay next queued := by
  cases he
  exact h

theorem Keeps.ofPhase {phase : RelayPhase} (h : phaseCauses { relay with phase } = []) :
    Keeps relay { relay with phase } none := by
  refine ⟨rfl,rfl,?_,?_⟩
  · intro c hc
    rw [mem_causes,h] at hc
    rw [mem_causes]
    rcases hc with hc | hc | hc
    · exact .inl hc
    · exact .inr (.inl hc)
    · cases hc
  · intro x hi
    cases hi

theorem Keeps.withItem {next : Relay} {x : QueuedFrame} (h : Keeps relay next none)
    (hid : x.frame.streamId = relay.streamId)
    (hi : x.cause = .broker ∧ x.frame.kind = .streamClose ∨
      x.cause ∈ relay.causes ∧ x.frame.kind = .streamData) :
    Keeps relay next (some x) := by
  refine ⟨h.streamId,h.opened,h.causes,?_⟩
  intro b ho
  cases ho
  exact ⟨hid,hi⟩

variable {f : BrokerFrame}

theorem Keeps.withClose {phase : RelayPhase} (h : phaseCauses { relay with phase } = [])
    (hf : BrokerFrame.new .streamClose relay.streamId [] = .ok f) :
    Keeps relay { relay with phase } (some ⟨f,none,.broker⟩) := by
  obtain ⟨hk,hid,-⟩ := BrokerFrame.new_eq_ok.mp hf
  exact (Keeps.ofPhase h).withItem hid (.inl ⟨rfl,hk⟩)

theorem keeps_fail (relay : Relay) : Keeps relay relay.fail.1 relay.fail.2 := by
  unfold fail
  split
  · next f hf => exact .withClose rfl hf
  · exact .ofPhase rfl

theorem keeps_close (relay : Relay) : Keeps relay relay.close.1 relay.close.2 := by
  unfold close
  split
  · next f hf => exact .withClose rfl hf
  · exact .ofPhase rfl

variable {epoch : ℕ}

theorem keeps_reply {resp : Bytes} (h : c ∈ relay.causes) :
    Keeps relay (relay.reply resp c epoch).1 (relay.reply resp c epoch).2 := by
  unfold reply
  split
  · next f hf =>
    obtain ⟨hk,hid,-⟩ := BrokerFrame.new_eq_ok.mp hf
    exact (Keeps.ofPhase rfl).withItem hid (.inr ⟨h,hk⟩)
  · exact keeps_fail relay

theorem Keeps.trans {mid next : Relay} {queued : Option QueuedFrame}
    (h₁ : Keeps relay mid none) (h₂ : Keeps mid next queued) : Keeps relay next queued := by
  refine ⟨h₂.streamId.trans h₁.streamId,h₂.opened.trans h₁.opened,?_,?_⟩
  · intro c hc
    exact h₁.causes c (h₂.causes c hc)
  · intro x hi
    obtain ⟨hid,hi⟩ := h₂.queued x hi
    refine ⟨hid.trans h₁.streamId,hi.imp_right ?_⟩
    intro h
    exact ⟨h₁.causes _ h.1,h.2⟩

theorem keeps_handle {xs : List (BrokerFrame × Cause)} (h : relay.inbox = (f, c)::xs) :
    Keeps relay ({ relay with inbox := xs }.handle epoch f c).1
      ({ relay with inbox := xs }.handle epoch f c).2 := by
  have ht : Keeps relay { relay with inbox := xs } none := by
    refine ⟨rfl,rfl,?_,?_⟩
    · intro b ho
      rw [mem_causes] at ho ⊢
      rw [h]
      rcases ho with ⟨packet,hp⟩ | ho
      · exact .inl ⟨packet,mem_cons_of_mem _ hp⟩
      · exact .inr ho
    · intro x hi
      cases hi
  have hh : c ∈ relay.causes := by
    rw [mem_causes,h]
    exact .inl ⟨f,mem_cons_self⟩
  unfold handle
  split
  · split
    · refine ⟨rfl,rfl,?_,?_⟩
      · intro b ho
        rw [mem_causes] at ho
        simp only [mem_append,mem_singleton,Prod.mk.injEq] at ho
        rcases ho with hin | ⟨packet,hp | ⟨-,rfl⟩⟩ | hph
        · exact ht.causes b (mem_causes.mpr (.inl hin))
        · exact mem_causes.mpr (.inr (.inl ⟨packet,hp⟩))
        · exact hh
        · cases mem_singleton.mp hph
          exact hh
      · intro x hi
        cases hi
    · exact ht.trans (keeps_fail _)
  · exact ht.trans (.ofPhase rfl)
  · exact ht.trans (.ofPhase rfl)
  · exact ht.trans (keeps_fail _)

theorem keeps_react {authorized reg : Bool} {next : Relay} {event : RelayEvent}
    {queued : Option QueuedFrame}
    (h : relay.react authorized epoch reg event = some (next, queued)) :
    Keeps relay next queued := by
  have hf : some relay.fail = some (next, queued) → _ := (keeps_fail relay).of_eq
  have hc : some relay.close = some (next, queued) → _ := (keeps_close relay).of_eq
  unfold react at h
  split at h
  · split at h
    · cases h
    · next hin =>
      exact (keeps_handle hin).of_eq h
  · split_ifs at h
    · cases h
      exact ⟨rfl,rfl,fun _ hca => hca,fun _ hi => nomatch hi⟩
    · exact hc h
  · split_ifs at h
    exact hf h
  · next c cap _ hp =>
    split_ifs at h
    · cases h
      refine ⟨rfl,rfl,?_,fun _ hi => nomatch hi⟩
      intro b ho
      rw [mem_causes] at ho ⊢
      simp only [phaseCauses,hp] at ho ⊢
      exact ho
    · exact hf h
  · next c cap resp hp =>
    split_ifs at h
    · have hh : c ∈ relay.causes := by
        rw [mem_causes]
        simp [phaseCauses,hp]
      exact (keeps_reply hh).of_eq h
    · exact hc h
  · exact hf h
  · split_ifs at h
    exact hc h
  · split_ifs at h
    · cases h
      exact .ofPhase rfl
    · exact hf h
  · cases h

theorem keeps_sent (relay : Relay) : Keeps relay relay.sent none := by
  unfold sent
  split
  · exact .ofPhase (by split_ifs <;> rfl)
  · exact .ofPhase rfl
  · exact ⟨rfl,rfl,fun _ hc => hc,fun _ hi => nomatch hi⟩

end Relay

def State.target (s : State) (frame : BrokerFrame) : Option Relay :=
  match s.inputs frame.streamId with
  | some (.relay index) =>
    match s.tasks[index]? with
    | some (.relay relay) => if relay.receives then some relay else none
    | _ => none
  | _ => none

/-- Positions in which the loop holds no frame of its own. -/
def Loop.isPlain : Loop → Bool
  | .selecting | .sending | .stopped _ => true
  | _ => false

/-- A task's value before and after its frame was queued. -/
inductive Resumed : Task → Task → Prop
  | same (task : Task) : Resumed task task
  | lookup (lookup : Lookup) : Resumed (.lookup lookup) (.lookup { lookup with phase := .ended })
  | relay (relay : Relay) : Resumed (.relay relay) (.relay relay.sent)

variable (requestOrigin : Bytes → Option HttpsOrigin) (identity : CredentialLeaseIdentity)

/-- The values tasks can take on by the event, before a frame of theirs is queued. -/
inductive Advances (s : State) (event : Event) : Task → Prop
  | kept {task : Task} (hmem : task ∈ s.tasks) : Advances s event task
  | lookupSpawned {request : BrokerFrame} (hloop : s.loop = .admitting request)
      (hkind : request.kind ≠ .identityRequest) :
      Advances s event (.lookup
        ⟨request,s.backend.policy.authorizationEpoch request.kind,s.now,.started⟩)
  | relaySpawned {request : BrokerFrame} {opened : ℕ}
      (hloop : s.loop = .connecting request opened) :
      Advances s event (.relay ⟨request.streamId,opened,[],[],.waiting⟩)
  | lookupReacted {lookup next : Lookup} {queued : Option QueuedFrame} {cause : LookupEvent}
      (hmem : Task.lookup lookup ∈ s.tasks)
      (hreact : lookup.react requestOrigin identity s.backend cause = some (next, queued)) :
      Advances s event (.lookup next)
  | relayReacted {relay next : Relay} {queued : Option QueuedFrame} {cause : RelayEvent}
      {registered : Bool} (hmem : Task.relay relay ∈ s.tasks)
      (hreact : relay.react (s.backend.isAuthorized identity .agentOpen)
        (s.backend.policy.authorizationEpoch .agentOpen) registered cause = some (next, queued)) :
      Advances s event (.relay next)
  | received {relay : Relay} {frame : BrokerFrame} {index : ℕ}
      (hmem : s.tasks[index]? = some (.relay relay))
      (hinput : s.inputs frame.streamId = some (.relay index))
      (hevent : event = .loop (.receive frame)) (hreceives : relay.receives = true) :
      Advances s event (.relay
        { relay with inbox := relay.inbox++[(frame, s.packetCause relay frame)] })
  | routed {relay : Relay} {frame : BrokerFrame} {cause : Cause} {index : ℕ}
      (hmem : Task.relay relay ∈ s.tasks) (hloop : s.loop = .routing index frame cause) :
      Advances s event (.relay { relay with inbox := relay.inbox++[(frame, cause)] })
  | left {relay : Relay} (hmem : Task.relay relay ∈ s.tasks) :
      Advances s event (.relay { relay with phase := .ended })

/-- The frames the event can put on their way out. -/
inductive Queues (s : State) (event : Event) : QueuedFrame → Prop
  | lookup {lookup next : Lookup} {queued : QueuedFrame} {cause : LookupEvent}
      (hmem : Task.lookup lookup ∈ s.tasks)
      (hreact : lookup.react requestOrigin identity s.backend cause = some (next, some queued)) :
      Queues s event queued
  | relay {relay next : Relay} {queued : QueuedFrame} {cause : RelayEvent} {registered : Bool}
      (hmem : Task.relay relay ∈ s.tasks)
      (hreact : relay.react (s.backend.isAuthorized identity .agentOpen)
        (s.backend.policy.authorizationEpoch .agentOpen) registered cause =
          some (next, some queued)) :
      Queues s event queued
  | error {queued : QueuedFrame} (hcause : queued.cause = .broker)
      (hkind : queued.frame.kind = .error) : Queues s event queued
  | healthAck {queued : QueuedFrame} {frame : BrokerFrame}
      (hevent : event = .loop (.receive frame)) (hframe : frame.kind = .health)
      (hcause : queued.cause = .broker) (hkind : queued.frame.kind = .healthAck) :
      Queues s event queued
  | identityResult {queued : QueuedFrame} {request : BrokerFrame} {epoch : ℕ}
      (hloop : s.loop = .identifying request epoch) (hcause : queued.cause = .broker)
      (hkind : queued.frame.kind = .identityResult) : Queues s event queued

/-- The positions the event can leave the loop in. -/
inductive LoopFrom (s : State) (event : Event) : Loop → Prop
  | kept : LoopFrom s event s.loop
  | plain {loop : Loop} (h : loop.isPlain = true) : LoopFrom s event loop
  | admitted {frame : BrokerFrame} (hevent : event = .loop (.receive frame))
      (hkind : frame.kind = .credentialLookup ∨ frame.kind = .identityRequest) :
      LoopFrom s event (.admitting frame)
  | connecting {frame : BrokerFrame} (hevent : event = .loop (.receive frame))
      (hkind : frame.kind = .agentOpen) : LoopFrom s event (.connecting frame s.now)
  | identifying {request : BrokerFrame} {epoch : ℕ} (hloop : s.loop = .admitting request)
      (hkind : request.kind = .identityRequest) : LoopFrom s event (.identifying request epoch)
  | routing {relay : Relay} {frame : BrokerFrame} {index : ℕ}
      (hmem : s.tasks[index]? = some (.relay relay))
      (hinput : s.inputs frame.streamId = some (.relay index))
      (hevent : event = .loop (.receive frame)) (hreceives : relay.receives = true) :
      LoopFrom s event (.routing index frame (s.packetCause relay frame))
  | checking {queued : QueuedFrame} {operation : BrokerFrameKind} {epoch : ℕ}
      (hmem : queued ∈ s.outbox.items) (hauth : queued.authorization = some (operation, epoch))
      (hepoch : s.backend.policy.authorizationEpoch operation = epoch) :
      LoopFrom s event (.checking queued s.now)
  | passed {queued : QueuedFrame} (hmem : queued ∈ s.outbox.items)
      (hauth : queued.authorization = none) :
      LoopFrom s event (.writing ⟨queued.frame,queued.cause,s.now⟩ queued.amount)
  | released {queued : QueuedFrame} {checked : ℕ} (hloop : s.loop = .checking queued checked) :
      LoopFrom s event (.writing ⟨queued.frame,queued.cause,checked⟩ queued.amount)
  | denied {written : Written} {held : ℕ} (hcause : written.cause = .broker)
      (hkind : written.frame.kind = .streamClose ∨ written.frame.kind = .error) :
      LoopFrom s event (.writing written held)

structure Effects (s : State) (event : Event) (t : State) : Prop where
  versions : t.versions = s.versions ∨ ∃ revision grants policy,
    event = .reconcile revision grants ∧
      s.backend.policy.reconcile revision grants = .ok policy ∧
      t.versions = s.versions++[policy]
  tasks : ∀ task ∈ t.tasks, ∃ before, Advances requestOrigin identity s event before ∧
    Resumed before task
  queued : ∀ queued ∈ t.outbox.items, queued ∈ s.outbox.items ∨
    Queues requestOrigin identity s event queued
  loop : LoopFrom s event t.loop
  written : t.written = s.written ∨ ∃ written held, s.loop = .writing written held ∧
    event = .loop .wrote ∧ t.written = s.written++[written]

section operations
variable {requestOrigin identity} {s t : State} {event : Event}

theorem Effects.mem_written (h : Effects requestOrigin identity s event t) {wr : Written}
    (hm : wr ∈ t.written) : wr ∈ s.written ∨ ∃ held, s.loop = .writing wr held := by
  rcases h.written with heq | ⟨b,held,hl,-,heq⟩
  · rw [heq] at hm
    exact .inl hm
  · rw [heq,mem_append] at hm
    rcases hm with hm | hm
    · exact .inl hm
    · cases mem_singleton.mp hm
      exact .inr ⟨held,hl⟩

namespace State

variable {i : ℕ}

/-- A frame stays with the loop if the channel of its relay is full. -/
theorem deliver_eq_none (htk : s.tasks[i]? = some (.relay relay)) (h : s.deliver i f c = none) :
    relay.receives = true ∧ ¬relay.inbox.length < Relay.inboxPlaces := by
  unfold deliver at h
  rw [htk] at h
  dsimp only at h
  split_ifs at h with hr hro
  exact ⟨hr,hro⟩

theorem mem_tasks_resume {sd : Sender} {task : Task} (h : task ∈ (s.resume sd).tasks) :
    ∃ bef ∈ s.tasks, Resumed bef task := by
  unfold resume at h
  split at h
  · exact ⟨task,h,.same task⟩
  · next i =>
    split at h
    · next lookup htk =>
      rcases mem_or_eq_of_mem_set h with h | rfl
      · exact ⟨task,h,.same task⟩
      · exact ⟨_,mem_of_getElem? htk,.lookup lookup⟩
    · next relay htk =>
      rcases mem_or_eq_of_mem_set h with h | rfl
      · exact ⟨task,h,.same task⟩
      · exact ⟨_,mem_of_getElem? htk,.relay relay⟩
    · exact ⟨task,h,.same task⟩

theorem resume_frame (s : State) (sd : Sender) :
    (s.resume sd).versions = s.versions ∧ (s.resume sd).outbox = s.outbox ∧
      (s.resume sd).written = s.written ∧
      ((s.resume sd).loop = s.loop ∨ (s.resume sd).loop = .selecting) := by
  unfold resume
  split
  · exact ⟨rfl,rfl,rfl,.inr rfl⟩
  · split
    all_goals exact ⟨rfl,rfl,rfl,.inl rfl⟩

theorem loop_send (s : State) (sd : Sender) (queued : QueuedFrame) :
    (s.send sd queued).loop = s.loop ∨ (s.send sd queued).loop = .selecting := by
  unfold send
  dsimp only
  split_ifs
  · exact (resume_frame _ sd).2.2.2
  · exact .inl rfl

end State

variable (requestOrigin identity s event) in
/-- What a step has done before a sender goes on, if it writes nothing. -/
structure Prepares (t : State) : Prop where
  versions : t.versions = s.versions
  tasks : ∀ task ∈ t.tasks, Advances requestOrigin identity s event task
  queued : ∀ queued ∈ t.outbox.items, queued ∈ s.outbox.items ∨
    Queues requestOrigin identity s event queued
  loop : LoopFrom s event t.loop
  written : t.written = s.written

variable {loop : Loop} {helpers streams : ℕ} {inputs : UInt32 → Option Recipient}

/-- Only the loop's position, permits and the input table change. -/
theorem Prepares.ofLoop (hl : LoopFrom s event loop) : Prepares requestOrigin identity s event
      { s with loop, freeHelpers := helpers, freeStreams := streams, inputs } where
  versions := rfl
  tasks _ hm := .kept hm
  queued _ hm := .inl hm
  loop := hl
  written := rfl

section
variable (h : Prepares requestOrigin identity s event t)
include h

theorem Prepares.effects : Effects requestOrigin identity s event t where
  versions := .inl h.versions
  tasks task hm := ⟨task,h.tasks task hm,.same task⟩
  queued := h.queued
  loop := h.loop
  written := .inl h.written

omit h in
theorem Effects.ofLoop (hl : LoopFrom s event loop) : Effects requestOrigin identity s event
      { s with loop, freeHelpers := helpers, freeStreams := streams, inputs } :=
  (Prepares.ofLoop hl).effects

theorem Prepares.resume (sd : Sender) : Effects requestOrigin identity s event (t.resume sd) := by
  obtain ⟨hv,ho,hw,hl⟩ := t.resume_frame sd
  refine ⟨.inl (hv.trans h.versions),?_,?_,?_,.inl (hw.trans h.written)⟩
  · intro task hm
    obtain ⟨bef,hb,hr⟩ := State.mem_tasks_resume hm
    exact ⟨bef,h.tasks bef hb,hr⟩
  · rw [ho]
    exact h.queued
  · rcases hl with hl | hl
    · exact hl ▸ h.loop
    · exact hl ▸ .plain rfl

variable {queued : QueuedFrame}

theorem Prepares.send (hq : Queues requestOrigin identity s event queued) (sd : Sender) :
    Effects requestOrigin identity s event (t.send sd queued) := by
  have ho : Prepares requestOrigin identity s event { t with
      outbox := (t.outbox.offer maxBrokerQueuedFrames QueuedFrame.amount sd queued).1 } := by
    refine ⟨h.versions,h.tasks,?_,h.loop,h.written⟩
    intro x hi
    rcases Outbox.mem_items_offer hi with rfl | hi
    · exact .inr hq
    · exact h.queued x hi
  unfold State.send
  dsimp only
  split_ifs
  · exact ho.resume sd
  · exact ho.effects

theorem Effects.reply {sid : UInt32} {pay : Bytes} (hq : ∀ f : BrokerFrame, f.kind = kind →
      Queues requestOrigin identity s event ⟨f,auth,.broker⟩) :
    Effects requestOrigin identity s event (t.reply kind sid pay auth) := by
  unfold State.reply
  split
  · next f hf =>
    have hs : Prepares requestOrigin identity s event { t with loop := .sending } :=
      { h with loop := .plain rfl }
    exact hs.send (hq f (BrokerFrame.new_eq_ok.mp hf).1) .loop
  · exact Prepares.effects { h with loop := .plain rfl }

theorem Effects.sendError (sid : UInt32) :
    Effects requestOrigin identity s event (t.sendError sid) := by
  apply Effects.reply h
  intro f hk
  exact .error rfl hk

variable {i : ℕ} {task : Task} (htk : Advances requestOrigin identity s event task)
include htk

theorem Prepares.setTask : Prepares requestOrigin identity s event (t.setTask i task) := by
  refine ⟨h.versions,?_,h.queued,h.loop,h.written⟩
  intro b hm
  rcases mem_or_eq_of_mem_set hm with hm | rfl
  · exact h.tasks b hm
  · exact htk

theorem Prepares.spawn :
    Prepares requestOrigin identity s event { t with tasks := t.tasks++[task] } := by
  exact ⟨h.versions,forall_mem_append.mpr ⟨h.tasks,forall_mem_singleton.mpr htk⟩,h.queued,
    h.loop,h.written⟩

theorem Effects.ofTask {queued : Option QueuedFrame}
    (hq : ∀ x, queued = some x → Queues requestOrigin identity s event x) :
    Effects requestOrigin identity s event (t.taskStep i task queued) := by
  cases queued with
  | none => exact (h.setTask htk).effects
  | some x => exact (h.setTask htk).send (hq x rfl) (.task i)

omit htk in
theorem Effects.deny (queued : QueuedFrame) (op : BrokerFrameKind) (ch : ℕ) :
    Effects requestOrigin identity s event (t.deny queued op ch) := by
  unfold State.deny
  dsimp only
  split
  · next f hf =>
    refine Prepares.effects { h with loop := .denied rfl ?_ }
    rw [(BrokerFrame.new_eq_ok.mp hf).1]
    split_ifs
    · exact .inl rfl
    · exact .inr rfl
  · exact Prepares.effects { h with loop := .plain rfl }

end

theorem Effects.deliver (h : s.deliver i f c = some t)
    (ha : ∀ relay, s.tasks[i]? = some (.relay relay) → relay.receives = true →
      Advances requestOrigin identity s event
        (.relay { relay with inbox := relay.inbox++[(f, c)] })) :
    Effects requestOrigin identity s event t := by
  unfold State.deliver at h
  split at h
  · next relay htk =>
    split_ifs at h with hr hro
    · cases h
      have hs : Prepares requestOrigin identity s event { s with loop := .selecting } :=
        .ofLoop (.plain rfl)
      exact (hs.setTask (ha relay htk hr)).effects
    · cases h
      exact .ofLoop (.plain rfl)
  · cases h
    exact .ofLoop (.plain rfl)

end operations

section step
variable {orig : Bytes → Option HttpsOrigin} {ident : CredentialLeaseIdentity} {s t : State}

theorem effects_route : Effects orig ident s (.loop (.receive f)) (s.route f) := by
  unfold State.route
  split
  · next i hi =>
    split
    · next relay htk =>
      dsimp only
      cases hd : s.deliver i f (s.packetCause relay f) with
      | none =>
        -- the channel is full, so its receiver exists
        have hr := (State.deliver_eq_none htk hd).1
        exact .ofLoop (.routing htk hi rfl hr)
      | some t =>
        apply Effects.deliver hd
        intro b ho hr
        cases Option.some.inj (htk.symm.trans ho)
        exact .received htk hi rfl hr
    · exact .ofLoop (.plain rfl)
  · exact .ofLoop (.plain rfl)

theorem effects_dispatch (f : BrokerFrame) :
    Effects orig ident s (.loop (.receive f)) (s.dispatch ident f) := by
  have he : Effects orig ident s (.loop (.receive f))
      (s.sendError f.streamId) := .sendError (.ofLoop .kept) _
  unfold State.dispatch
  cases hk : f.kind with
  | credentialLookup =>
    dsimp only
    split_ifs
    · exact he
    · exact .ofLoop (.plain rfl)
    · exact .ofLoop (.admitted rfl (.inl hk))
  | agentOpen =>
    dsimp only
    split_ifs
    · exact he
    · exact he
    · exact .ofLoop (.connecting rfl hk)
  | identityRequest =>
    dsimp only
    split_ifs
    · exact he
    · exact .ofLoop (.admitted rfl (.inr hk))
  | streamData | streamClose | cancel => exact effects_route
  | health =>
    apply Effects.reply (.ofLoop .kept)
    intro ack ha
    exact .healthAck rfl hk rfl ha
  | _ => exact .ofLoop (.plain rfl)

variable {req : BrokerFrame}

theorem effects_capture (hl : s.loop = .admitting req) :
    Effects orig ident s (.loop .capture) (s.capture req) := by
  unfold State.capture
  split_ifs with hk
  · exact .ofLoop (.identifying hl hk)
  · have hs : Prepares orig ident s (.loop .capture)
        { s with loop := .selecting } := .ofLoop (.plain rfl)
    exact (hs.spawn (.lookupSpawned hl hk)).effects

variable {e : Event}

theorem effects_openRelay {op : ℕ} (hl : s.loop = .connecting req op) :
    Effects orig ident s e (s.openRelay req op) := by
  unfold State.openRelay
  dsimp only
  split
  · exact .sendError (.ofLoop .kept) _
  · have hs : Prepares orig ident s e { s with
        loop := .selecting
        inputs := Function.update s.inputs req.streamId (some (.relay s.tasks.length)) } :=
      .ofLoop (.plain rfl)
    exact (hs.spawn (.relaySpawned hl)).effects

theorem effects_dequeue {xs : Outbox Sender QueuedFrame} (ht : s.outbox.take = some (queued, xs)) :
    Effects orig ident s e ({ s with outbox := xs }.compareEpoch queued) := by
  have hm := (Outbox.mem_items_take (a := queued) ht).1
  have hr : Prepares orig ident s e { s with outbox := xs } :=
    ⟨rfl,fun _ hm => .kept hm,fun _ hi => .inl ((Outbox.mem_items_take ht).2 hi),.kept,rfl⟩
  unfold State.compareEpoch
  split
  · next ha => exact Prepares.effects { hr with loop := .passed hm ha }
  · next op epoch ha =>
    split_ifs with he
    · exact .deny hr _ _ _
    · exact Prepares.effects { hr with loop := .checking hm ha (not_not.mp he) }

theorem effects_recheck {ch : ℕ} (hl : s.loop = .checking queued ch) :
    Effects orig ident s e (s.recheck ident queued ch) := by
  unfold State.recheck
  split
  · split_ifs
    · exact .ofLoop (.released hl)
    · exact .deny (.ofLoop .kept) _ _ _
  · exact .ofLoop (.released hl)

theorem effects_loopStep {e : LoopEvent} (ht : s.loopStep ident e = some t) :
    Effects orig ident s (.loop e) t := by
  unfold State.loopStep at ht
  split at ht
  · cases ht
    exact effects_dispatch _
  · cases ht
    exact .ofLoop (.plain rfl)
  · cases ht
    exact .ofLoop (.plain rfl)
  · next hl =>
    cases ht
    exact effects_capture hl
  · next hl =>
    split_ifs at ht
    cases ht
    exact effects_openRelay hl
  · cases ht
    exact .sendError (.ofLoop .kept) _
  · next hl =>
    split_ifs at ht
    · cases ht
      apply Effects.reply (.ofLoop .kept)
      intro f hk
      exact .identityResult hl rfl hk
    · cases ht
      exact .sendError (.ofLoop .kept) _
  · cases ht
    exact .sendError (.ofLoop .kept) _
  · split_ifs at ht
    cases ht
    exact .sendError (.ofLoop .kept) _
  · next hl =>
    apply Effects.deliver ht
    intro relay htk _
    exact .routed (mem_of_getElem? htk) hl
  · split at ht
    · next queued xs hta =>
      cases ht
      exact effects_dequeue hta
    · cases ht
  · next hl =>
    cases ht
    exact effects_recheck hl
  · next written held hl =>
    cases ht
    have hs : Effects orig ident s (.loop .wrote)
        { s with loop := .selecting } := .ofLoop (.plain rfl)
    exact { hs with written := .inr ⟨written,held,hl,rfl,rfl⟩ }
  · cases ht
    exact .ofLoop (.plain rfl)
  · cases ht

theorem effects_lookupStep {e : LookupEvent} (ht : s.lookupStep orig ident i e = some t) :
    Effects orig ident s (.lookup i e) t := by
  unfold State.lookupStep at ht
  split at ht
  · next lookup htk =>
    have hm := mem_of_getElem? htk
    split at ht
    · next next queued hr =>
      cases ht
      apply Effects.ofTask
      · exact .ofLoop .kept
      · exact .lookupReacted hm hr
      · intro x hi
        subst hi
        exact .lookup hm hr
    · cases ht
  · cases ht

theorem effects_relayStep {e : RelayEvent} (ht : s.relayStep ident i e = some t) :
    Effects orig ident s (.relay i e) t := by
  unfold State.relayStep at ht
  split at ht
  · next relay htk =>
    have hm := mem_of_getElem? htk
    split at ht
    · next next queued hr =>
      cases ht
      apply Effects.ofTask
      · exact .ofLoop .kept
      · exact .relayReacted hm hr
      · intro x hi
        subst hi
        exact .relay hm hr
    · cases ht
  · cases ht

theorem effects_leave (ht : s.leave i = some t) : Effects orig ident s (.leave i) t := by
  unfold State.leave at ht
  split at ht
  · next relay htk =>
    split_ifs at ht
    cases ht
    exact (Prepares.setTask (.ofLoop .kept) (.left (mem_of_getElem? htk))).effects
  · cases ht

/-- A waiting sender's frame moves on, and the sender may go on with it. -/
theorem prepares_grant {e : Event} {outbox : Outbox Sender QueuedFrame}
    (ho : ∀ x ∈ outbox.items, x ∈ s.outbox.items) :
    Prepares orig ident s e { s with outbox } :=
  ⟨rfl,fun _ hm => .kept hm,fun x hi => .inl (ho x hi),.kept,rfl⟩

theorem effects_step (ht : s.step orig ident e = some t) : Effects orig ident s e t := by
  cases e with
  | reconcile rev grants =>
    simp only [State.step] at ht
    split at ht
    · next be hr =>
      cases ht
      have hpo := LiveCredentialBackend.policy_of_reconcile hr
      have hk : Effects orig ident s (.reconcile rev grants) s := .ofLoop .kept
      exact { hk with
        versions := .inr ⟨rev,grants,be.policy,rfl,hpo,rfl⟩ }
    · cases ht
  | loop e => exact effects_loopStep ht
  | lookup i e =>
    simp only [State.step] at ht
    split_ifs at ht
    exact effects_lookupStep ht
  | relay i e =>
    simp only [State.step] at ht
    split_ifs at ht
    exact effects_relayStep ht
  | leave i =>
    simp only [State.step] at ht
    split_ifs at ht
    exact effects_leave ht
  | grantBytes =>
    simp only [State.step] at ht
    split_ifs at ht
    split at ht
    · next sd ob queued hg =>
      cases ht
      have hp := @prepares_grant orig ident s .grantBytes ob fun _ => Outbox.mem_items_grantBytes hg
      split_ifs
      · exact hp.resume sd
      · exact hp.effects
    · cases ht
  | grantPlace =>
    simp only [State.step] at ht
    split_ifs at ht
    split at ht
    · next sd ob hg =>
      cases ht
      exact (prepares_grant fun _ => Outbox.mem_items_grantPlace hg).resume sd
    · cases ht

end step
end Cdenv.HostBroker
