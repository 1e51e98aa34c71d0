import Cdenv.AgentBridge
import Cdenv.HostBrokerSteps

/-!
# What the dispatch loops wait for

Each dispatch loop is the only consumer of its outgoing queue. If it waits for a place
in that queue, for byte permits, or for a stream's task that itself waits for the queue,
nobody drains the queue any more. Both loops can get there: they queue replies of their
own and hand frames to bounded channels. They do not as long as the outbox has room
whenever the loop replies itself and every channel has room when a frame for it arrives.
-/
namespace Cdenv.DispatchWaits
open BrokerProtocol Credentials CredentialBackend

section host
open HostBroker

/-- The loop waits for its own queue, or for a relay that waits for it. -/
def HostSuspended (s : State) : Prop :=
  s.loop = .sending ∨ ∃ index frame cause relay last, s.loop = .routing index frame cause ∧
    s.tasks[index]? = some (.relay relay) ∧ relay.phase = .sending last

variable (identity : CredentialLeaseIdentity)

/-- The bytes of the frame the loop itself queues on the event. -/
def hostReply (s : State) : Event → Option ℕ
  | .loop event =>
    match s.loop, event with
    | .selecting, .receive frame =>
      match frame.kind with
      | .credentialLookup =>
        if s.backend.isAuthorized identity .credentialLookup then none else some 1
      | .agentOpen =>
        if s.backend.isAuthorized identity .agentOpen ∧ s.freeStreams ≠ 0 then none
        else some 1
      | .identityRequest =>
        if s.backend.isAuthorized identity .identityRequest then none else some 1
      | .health => some 1
      | _ => none
    | .connecting request _, .connected =>
      if (s.inputs request.streamId).isSome then some 1 else none
    | .connecting _ _, .connectFailed => some 1
    | .identifying _ _, .metadata (some payload) =>
      if s.backend.isAuthorized identity .identityRequest then some (max payload.length 1)
      else some 1
    | .identifying _ _, .metadata none => some 1
    | .identifying _ _, .identityRevoked => some 1
    | _, _ => none
  | _ => none

/-- The relay whose channel the event fills. -/
def hostTarget (s : State) : Event → Option Relay
  | .loop (.receive frame) =>
    match frame.kind with
    | .streamData | .streamClose | .cancel => s.target frame
    | _ => none
  | _ => none

/-- The outbox takes the loop's own frame at once, and so does the channel of the relay
that a frame arrives for. -/
def hostClear (s : State) (event : Event) : Bool :=
  (hostReply identity s event).all (s.outbox.ready maxBrokerQueuedFrames) &&
    (hostTarget s event).all fun relay => relay.inbox.length < Relay.inboxPlaces

/-- Positions in which the loop waits for its queue or for a channel. -/
def hostWaits : HostBroker.Loop → Bool
  | .sending | .routing _ _ _ => true
  | _ => false

variable {identity} {s t : State}

theorem hostWaits_reply {k : BrokerFrameKind} {sid : UInt32} {pay : Bytes}
    {auth : Option (BrokerFrameKind × ℕ)}
    (h : s.outbox.ready maxBrokerQueuedFrames (max pay.length 1) = true) :
    hostWaits (s.reply k sid pay auth).loop = false := by
  unfold State.reply
  split
  · next f hf =>
    have hp := (BrokerFrame.new_eq_ok.mp hf).2.2
    have ho : (s.outbox.offer maxBrokerQueuedFrames QueuedFrame.amount Sender.loop
        ⟨f,auth,.broker⟩).2 = true := by
      rw [Outbox.offer_snd,QueuedFrame.amount,hp]
      exact h
    unfold State.send
    rw [if_pos ho]
    rfl
  · rfl

variable {q : QueuedFrame} {f : BrokerFrame}

theorem hostWaits_deny {op : BrokerFrameKind} {ch : ℕ} :
    hostWaits (s.deny q op ch).loop = false := by
  unfold State.deny
  dsimp only
  split
  all_goals rfl

theorem hostWaits_deliver {i : ℕ} {c : Cause} (h : s.deliver i f c = some t)
    : hostWaits t.loop = false := by
  unfold State.deliver at h
  split at h
  · split_ifs at h
    all_goals
      cases h
      rfl
  · cases h
    rfl

theorem hostWaits_route
    (h : (s.target f).all (fun relay => relay.inbox.length < Relay.inboxPlaces) = true) :
    hostWaits (s.route f).loop = false := by
  unfold State.route
  split
  · next i hi =>
    split
    · next relay ht =>
      dsimp only
      cases hd : s.deliver i f (s.packetCause relay f) with
      | some t => exact hostWaits_deliver hd
      | none =>
        -- a refused delivery means a full channel, which the condition excludes
        obtain ⟨hr,hro⟩ := State.deliver_eq_none ht hd
        have hta : s.target f = some relay := by
          simp only [State.target,hi,ht,hr,if_true]
        rw [hta] at h
        exact (hro (of_decide_eq_true h)).elim
    · rfl
  · rfl

theorem hostWaits_dispatch (hl : s.loop = .selecting)
    (h : hostClear identity s (.loop (.receive f)) = true) :
    hostWaits (s.dispatch identity f).loop = false := by
  simp only [hostClear,Bool.and_eq_true,hostReply,hostTarget,hl] at h
  obtain ⟨hr,ht⟩ := h
  unfold State.dispatch
  cases hk : f.kind with
  | credentialLookup =>
    rw [hk] at hr
    dsimp only at hr ⊢
    split_ifs with hd hh
    · rw [Bool.not_eq_true'] at hd
      rw [hd] at hr
      exact hostWaits_reply hr
    all_goals rfl
  | agentOpen =>
    rw [hk] at hr
    dsimp only at hr ⊢
    split_ifs with hd hs
    · rw [Bool.not_eq_true'] at hd
      rw [hd] at hr
      exact hostWaits_reply hr
    · simp only [hs,ne_eq,not_true,and_false,if_false] at hr
      exact hostWaits_reply hr
    · rfl
  | identityRequest =>
    rw [hk] at hr
    dsimp only at hr ⊢
    split_ifs with hd
    · rw [Bool.not_eq_true'] at hd
      rw [hd] at hr
      exact hostWaits_reply hr
    · rfl
  | health =>
    rw [hk] at hr
    exact hostWaits_reply hr
  | streamData | streamClose | cancel =>
    rw [hk] at ht
    exact hostWaits_route ht
  | _ => rfl

theorem hostWaits_openRelay {req : BrokerFrame} {op : ℕ}
    (h : (s.inputs req.streamId).isSome = true → s.outbox.ready maxBrokerQueuedFrames 1 = true) :
    hostWaits (s.openRelay req op).loop = false := by
  unfold State.openRelay
  dsimp only
  split
  · next recipient hi =>
    apply hostWaits_reply
    exact h (by rw [hi]; rfl)
  · rfl

theorem hostWaits_compareEpoch : hostWaits (s.compareEpoch q).loop = false := by
  unfold State.compareEpoch
  split
  · rfl
  · split_ifs
    · exact hostWaits_deny
    · rfl

theorem hostWaits_recheck {ch : ℕ} : hostWaits (s.recheck identity q ch).loop = false := by
  unfold State.recheck
  split
  · split_ifs
    · rfl
    · exact hostWaits_deny
  · rfl

theorem hostWaits_loopStep {e : LoopEvent} (hc : hostClear identity s (.loop e) = true)
    (ht : s.loopStep identity e = some t) : hostWaits t.loop = false := by
  have hr : (hostReply identity s (.loop e)).all (s.outbox.ready maxBrokerQueuedFrames) = true := by
    simp only [hostClear,Bool.and_eq_true] at hc
    exact hc.1
  unfold State.loopStep at ht
  split at ht
  · next hl =>
    cases ht
    exact hostWaits_dispatch hl hc
  · cases ht
    rfl
  · cases ht
    rfl
  · cases ht
    unfold State.capture
    split_ifs
    all_goals rfl
  · next req op hl =>
    split_ifs at ht
    cases ht
    apply hostWaits_openRelay
    intro hi
    simpa [hostReply,hl,hi] using hr
  · next req op hl =>
    cases ht
    apply hostWaits_reply
    simpa [hostReply,hl] using hr
  · next req ep pay hl =>
    split_ifs at ht with ha
    all_goals
      cases ht
      apply hostWaits_reply
      simpa [hostReply,hl,ha] using hr
  · next req ep hl =>
    cases ht
    apply hostWaits_reply
    simpa [hostReply,hl] using hr
  · next req ep hl =>
    split_ifs at ht
    cases ht
    apply hostWaits_reply
    simpa [hostReply,hl] using hr
  · exact hostWaits_deliver ht
  · split at ht
    · cases ht
      exact hostWaits_compareEpoch
    · cases ht
  · cases ht
    exact hostWaits_recheck
  · cases ht
    rfl
  · cases ht
    rfl
  · cases ht

theorem loop_taskStep (s : State) (i : ℕ) (tsk : Task) (q : Option QueuedFrame) :
    (s.taskStep i tsk q).loop = s.loop ∨ (s.taskStep i tsk q).loop = .selecting := by
  cases q with
  | none => exact .inl rfl
  | some x => exact State.loop_send (s.setTask i tsk) (.task i) x

variable {orig : Bytes → Option HttpsOrigin} {e : Event}

/-- Tasks and grants leave the loop where it is or let it go on. -/
theorem loop_step (ht : s.step orig identity e = some t)
    (he : ∀ own, e ≠ .loop own) : t.loop = s.loop ∨ t.loop = .selecting := by
  cases e with
  | reconcile rev gs =>
    simp only [State.step] at ht
    split at ht
    · cases ht
      exact .inl rfl
    · cases ht
  | loop e => exact (he e rfl).elim
  | lookup i e =>
    simp only [State.step,State.lookupStep] at ht
    split_ifs at ht
    split at ht
    · split at ht
      · cases ht
        exact loop_taskStep _ _ _ _
      · cases ht
    · cases ht
  | relay i e =>
    simp only [State.step,State.relayStep] at ht
    split_ifs at ht
    split at ht
    · split at ht
      · cases ht
        exact loop_taskStep _ _ _ _
      · cases ht
    · cases ht
  | leave i =>
    simp only [State.step,State.leave] at ht
    split_ifs at ht
    split at ht
    · split_ifs at ht
      cases ht
      exact .inl rfl
    · cases ht
  | grantBytes =>
    simp only [State.step] at ht
    split_ifs at ht
    split at ht
    · next sd outbox q _ =>
      cases ht
      split_ifs
      · exact (State.resume_frame { s with outbox } sd).2.2.2
      · exact .inl rfl
    · cases ht
  | grantPlace =>
    simp only [State.step] at ht
    split_ifs at ht
    split at ht
    · next sd outbox _ =>
      cases ht
      exact (State.resume_frame { s with outbox } sd).2.2.2
    · cases ht

theorem hostWaits_step (h : hostWaits s.loop = false) (hc : hostClear identity s e = true)
    (ht : s.step orig identity e = some t) : hostWaits t.loop = false := by
  cases e with
  | loop e => exact hostWaits_loopStep hc ht
  | _ =>
    rcases loop_step ht nofun with hl | hl
    · rwa [hl]
    · rw [hl]
      rfl

theorem not_hostSuspended (h : hostWaits s.loop = false) : ¬HostSuspended s := by
  rintro (hl | ⟨i,f,c,r,l,hl,-⟩)
  all_goals
    rw [hl] at h
    cases h

end host

section bridge
open AgentBridge

/-- The loop waits for its own queue, or for a client that waits for it. -/
def BridgeSuspended (s : State) : Prop :=
  s.loop = .sending ∨ ∃ index frame client next, s.loop = .routing index frame ∧
    s.clients[index]? = some client ∧ client.phase = .sending next

/-- The outbox takes an acknowledgement at once, and the channel of the client that a
frame arrives for takes the frame. -/
def bridgeClear (s : State) : Event → Bool
  | .receive frame =>
    match frame.kind with
    | .health => s.outbox.ready maxBrokerQueuedFrames 1
    | .credentialResult | .streamData | .streamClose | .error =>
      (s.target frame).all fun client => client.inbox.length < Client.inboxPlaces
    | _ => true
  | _ => true

/-- Positions in which the loop waits for its queue or for a channel. -/
def bridgeWaits : AgentBridge.Loop → Bool
  | .sending | .routing _ _ => true
  | _ => false

variable {s t : State}

theorem loop_resume (s : State) (sd : Sender) :
    (s.resume sd).loop = s.loop ∨ (s.resume sd).loop = .selecting := by
  unfold State.resume
  split
  · exact .inr rfl
  · split
    all_goals exact .inl rfl

theorem loop_send (s : State) (sd : Sender) (f : BrokerFrame) :
    (s.send sd f).loop = s.loop ∨ (s.send sd f).loop = .selecting := by
  unfold State.send
  dsimp only
  split_ifs
  · exact loop_resume _ sd
  · exact .inl rfl

theorem bridgeWaits_of_loop {loop : AgentBridge.Loop} (h : bridgeWaits s.loop = false)
    (hl : loop = s.loop ∨ loop = .selecting) : bridgeWaits loop = false := by
  rcases hl with rfl | rfl
  · exact h
  · rfl

variable {f : BrokerFrame}

theorem bridgeWaits_deliver {i : ℕ} (h : s.deliver i f = some t) : bridgeWaits t.loop = false := by
  unfold State.deliver at h
  split at h
  · split_ifs at h
    all_goals
      cases h
      rfl
  · cases h
    rfl

theorem bridgeWaits_route
    (h : (s.target f).all (fun client => client.inbox.length < Client.inboxPlaces) = true)
    : bridgeWaits (s.route f).loop = false := by
  unfold State.route
  split
  · next i hi =>
    cases hd : s.deliver i f with
    | some t => exact bridgeWaits_deliver hd
    | none =>
      unfold State.deliver at hd
      split at hd
      · next client hc =>
        split_ifs at hd with hr hro
        have ht : s.target f = some client := by
          simp only [State.target,State.receiver,hi,hc,hr,if_true]
        rw [ht] at h
        exact (hro (of_decide_eq_true h)).elim
      · cases hd
  · rfl

theorem bridgeWaits_dispatch (h : bridgeClear s (.receive f) = true) :
    bridgeWaits (s.dispatch f).loop = false := by
  unfold State.dispatch
  cases hk : f.kind with
  | health =>
    simp only [bridgeClear,hk] at h
    dsimp only
    split
    · next ack ha =>
      have hp := (BrokerFrame.new_eq_ok.mp ha).2.2
      have ho : (s.outbox.offer maxBrokerQueuedFrames amount Sender.loop ack).2 = true := by
        rw [Outbox.offer_snd,amount,hp]
        exact h
      unfold State.send
      rw [if_pos ho]
      rfl
    · rfl
  | credentialResult | streamData | streamClose | error =>
    simp only [bridgeClear,hk] at h
    exact bridgeWaits_route h
  | _ => rfl

theorem bridgeWaits_accept (h : bridgeWaits s.loop = false) (k : EndpointKind) :
    bridgeWaits (s.accept k).loop = false := by
  unfold State.accept
  dsimp only
  split_ifs
  · exact h
  · rfl
  · rfl
  · exact h

theorem bridgeWaits_step (h : bridgeWaits s.loop = false) (hc : bridgeClear s e = true)
    (ht : s.step e = some t) : bridgeWaits t.loop = false := by
  unfold State.step at ht
  split at ht
  · cases ht
  · cases ht
    exact bridgeWaits_dispatch hc
  · cases ht
    rfl
  · cases ht
    rfl
  · exact bridgeWaits_deliver ht
  · split at ht
    · cases ht
      rfl
    · cases ht
  · cases ht
    rfl
  · cases ht
    rfl
  · cases ht
    exact bridgeWaits_accept h _
  · cases ht
    rfl
  · unfold State.clientStep at ht
    split at ht
    · split at ht
      · cases ht
        exact bridgeWaits_of_loop h (loop_send _ _ _)
      · cases ht
        exact h
      · cases ht
    · cases ht
  · unfold State.leave at ht
    split at ht
    · split_ifs at ht
      cases ht
      exact h
    · cases ht
  · split at ht
    · cases ht
      split_ifs
      · exact bridgeWaits_of_loop h (loop_resume _ _)
      · exact h
    · cases ht
  · split at ht
    · cases ht
      exact bridgeWaits_of_loop h (loop_resume _ _)
    · cases ht
  · cases ht

theorem not_bridgeSuspended (h : bridgeWaits s.loop = false) : ¬BridgeSuspended s := by
  rintro (hl | ⟨i,f,cl,next,hl,-⟩)
  all_goals
    rw [hl] at h
    cases h

end bridge

/-- Neither dispatch loop ever waits for its own queue, directly or through a stream's
task, if all its steps find room for what they queue and hand on. -/
theorem never_suspended {requestOrigin : Bytes → Option HttpsOrigin}
    {identity : CredentialLeaseIdentity} {backend : LiveCredentialBackend}
    {hostEvents : List HostBroker.Event} {host : HostBroker.State}
    {bridgeEvents : List AgentBridge.Event} {bridge : AgentBridge.State}
    (hhost : EventRun.run (HostBroker.State.step requestOrigin identity)
      (HostBroker.State.start backend) hostEvents = some host)
    (hhostClear : EventRun.Along (HostBroker.State.step requestOrigin identity)
      (fun s event => hostClear identity s event = true) (HostBroker.State.start backend)
      hostEvents)
    (hbridge : EventRun.run AgentBridge.State.step AgentBridge.State.start bridgeEvents =
      some bridge)
    (hbridgeClear : EventRun.Along AgentBridge.State.step
      (fun s event => bridgeClear s event = true) AgentBridge.State.start bridgeEvents) :
    ¬HostSuspended host ∧ ¬BridgeSuspended bridge := by
  have hh := EventRun.run_invariant_along (I := fun s => hostWaits s.loop = false)
      (fun _ _ _ hs hc ht => hostWaits_step hs hc ht) rfl hhostClear hhost
  have hb := EventRun.run_invariant_along (I := fun s => bridgeWaits s.loop = false)
      (fun _ _ _ hs hc ht => bridgeWaits_step hs hc ht) rfl hbridgeClear hbridge
  exact ⟨not_hostSuspended hh,not_bridgeSuspended hb⟩

def probe : BrokerFrame := ⟨.health,0,[],Nat.zero_le _,by decide⟩

def idleBackend : LiveCredentialBackend := .new sampleLease .none none

theorem never_suspended_probe : ∃ host bridge,
    EventRun.run (HostBroker.State.step (fun _ => none) sampleLease)
      (HostBroker.State.start idleBackend)
      [.loop (.receive probe),.loop .dequeue,.loop .wrote,.loop (.receive probe)] = some host ∧
    EventRun.run AgentBridge.State.step AgentBridge.State.start
      [.receive probe,.dequeue,.wrote,.receive probe] = some bridge ∧
    ¬HostSuspended host ∧ ¬BridgeSuspended bridge := by
  refine ⟨_,_,rfl,rfl,@never_suspended (fun _ => none) sampleLease idleBackend
    [.loop (.receive probe),.loop .dequeue,.loop .wrote,.loop (.receive probe)] _
    [.receive probe,.dequeue,.wrote,.receive probe] _ rfl ?_ rfl ?_⟩
  all_goals decide +kernel

/-- Probes that are all read before the first acknowledgement is written fill the queue;
the next one suspends the loop, at either end. -/
theorem suspended_after_probes : ∃ host bridge,
    EventRun.run (HostBroker.State.step (fun _ => none) sampleLease)
      (HostBroker.State.start idleBackend) (List.replicate 65 (.loop (.receive probe))) =
        some host ∧ HostSuspended host ∧
    EventRun.run AgentBridge.State.step AgentBridge.State.start
      (List.replicate 65 (.receive probe)) = some bridge ∧ BridgeSuspended bridge :=
  ⟨_,_,rfl,.inl rfl,rfl,.inl rfl⟩

end Cdenv.DispatchWaits
