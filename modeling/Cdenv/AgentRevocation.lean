import Cdenv.HostBrokerSteps

/-!
# Packets after a revocation

A stream to the SSH agent belongs to the selector that was granted when the stream was
opened. Nothing received on it after that grant was disabled or its selector replaced
should reach the agent. The relay, however, takes a packet without looking at the policy
and keeps the epoch it reads then, not the one of the opening; it notices a revocation
only when its poll finds the capability disabled. The packets it takes are those of its
own grant if, whenever a packet arrives after a change, the relay has noticed already.
-/
namespace Cdenv.AgentRevocation
open BrokerProtocol Credentials CredentialBackend HostBroker List

/-- The selector granted at a moment. -/
def selectorAt (versions : List LiveCredentialPolicy) (moment : ℕ) :
    Option (Option SshAgentSelector) :=
  versions[moment]?.map fun policy => policy.grants.sshAgent

/-- From the opening of the stream to the receipt the granted selector was one. -/
def Unchanged (versions : List LiveCredentialPolicy) (opened received : ℕ) : Prop :=
  received < versions.length ∧ ∀ moment ≤ received, opened ≤ moment →
    selectorAt versions moment = selectorAt versions opened

instance (versions : List LiveCredentialPolicy) (opened received : ℕ) :
    Decidable (Unchanged versions opened received) :=
  inferInstanceAs (Decidable (_ ∧ _))

/-- No packet that came after a change was handed to an agent or answered. -/
structure Confined (s : State) : Prop where
  forwarded : ∀ relay frame opened received, Task.relay relay ∈ s.tasks →
    (frame, .packet opened received) ∈ relay.forwarded → Unchanged s.versions opened received
  returned : ∀ written opened received, written ∈ s.written →
    written.cause = .packet opened received → Unchanged s.versions opened received

/-- The relay that the event brings a packet to, if it still takes packets. -/
def packetTarget (s : State) : Event → Option Relay
  | .loop (.receive frame) => if frame.kind = .streamData then s.target frame else none
  | _ => none

/-- A packet arrives at a relay that still takes packets only while the selector is the
one its stream was opened under. -/
def Noticed (s : State) (event : Event) : Prop :=
  match packetTarget s event with
  | some relay => Unchanged s.versions relay.opened s.now
  | none => True

instance (s : State) (event : Event) : Decidable (Noticed s event) :=
  match h : packetTarget s event with
  | some relay => decidable_of_iff (Unchanged s.versions relay.opened s.now) (by
      simp only [Noticed,h])
  | none => isTrue (by simp only [Noticed,h])

def CauseConfined (versions : List LiveCredentialPolicy) (cause : Cause) : Prop :=
  ∀ opened received, cause = .packet opened received → Unchanged versions opened received

def loopCauses : HostBroker.Loop → List Cause
  | .routing _ _ cause => [cause]
  | .checking queued _ => [queued.cause]
  | .writing written _ => [written.cause]
  | _ => []

structure Held (s : State) : Prop where
  relays : ∀ relay, Task.relay relay ∈ s.tasks → ∀ cause ∈ relay.causes,
    CauseConfined s.versions cause
  queued : ∀ queued ∈ s.outbox.items, CauseConfined s.versions queued.cause
  loop : ∀ cause ∈ loopCauses s.loop, CauseConfined s.versions cause
  written : ∀ written ∈ s.written, CauseConfined s.versions written.cause

variable {extra vers : List LiveCredentialPolicy}

theorem Unchanged.later {op received : ℕ} (h : Unchanged vers op received)
    : Unchanged (vers++extra) op received := by
  obtain ⟨hlt,ha⟩ := h
  refine ⟨by rw [length_append]; omega,?_⟩
  intro mo hh hl
  have hs := ha mo hh hl
  unfold selectorAt at hs ⊢
  rw [getElem?_append_left (by omega),getElem?_append_left (by omega)]
  exact hs

theorem CauseConfined.later {cause : Cause} (h : CauseConfined vers cause)
    : CauseConfined (vers++extra) cause := by
  intro op rcv he
  exact (h op rcv he).later

theorem confined_broker (vers : List LiveCredentialPolicy) : CauseConfined vers .broker := by
  intro op rcv h
  cases h

theorem loopCauses_of_plain {loop : HostBroker.Loop} (h : loop.isPlain = true) :
    loopCauses loop = [] := by
  cases loop <;> first | rfl | cases h

section step
variable {orig : Bytes → Option HttpsOrigin} {ident : CredentialLeaseIdentity}
  {s : State} {e : Event}

/-- What arrives at a relay is confined if the relay has noticed every change. -/
theorem confined_packetCause (hn : Noticed s e) {relay : Relay} {f : BrokerFrame}
    {i : ℕ} (hm : s.tasks[i]? = some (.relay relay))
    (hi : s.inputs f.streamId = some (.relay i))
    (hev : e = .loop (.receive f)) (hr : relay.receives = true) :
    CauseConfined s.versions (s.packetCause relay f) := by
  subst hev
  unfold State.packetCause
  split_ifs with hk
  · have ht : packetTarget s (.loop (.receive f)) = some relay := by
      simp only [packetTarget,State.target,hi,hm,hk,hr,if_true]
    simp only [Noticed,ht] at hn
    intro op rcv he
    cases he
    exact hn
  · exact confined_broker _

theorem advances_confined (h : Held s) (hno : Noticed s e) {r : Relay}
    (ha : Advances orig ident s e (.relay r)) :
    ∀ cause ∈ r.causes, CauseConfined s.versions cause := by
  have hap : ∀ (old : Relay) (f : BrokerFrame) (new : Cause),
      (∀ cause ∈ old.causes, CauseConfined s.versions cause) → CauseConfined s.versions new →
      ∀ cause ∈ Relay.causes { old with inbox := old.inbox++[(f, new)] },
        CauseConfined s.versions cause := by
    intro old f new ho hn cause hc
    rw [Relay.mem_causes] at hc
    simp only [mem_append,mem_singleton,Prod.mk.injEq] at hc
    rcases hc with ⟨packet,hp | ⟨-,rfl⟩⟩ | hrs
    · exact ho cause (Relay.mem_causes.mpr (.inl ⟨packet,hp⟩))
    · exact hn
    · exact ho cause (Relay.mem_causes.mpr (.inr hrs))
  cases ha with
  | kept hm => exact h.relays r hm
  | relaySpawned hl =>
    intro cause hc
    cases hc
  | relayReacted hm hr =>
    intro cause hc
    exact h.relays _ hm cause ((Relay.keeps_react hr).causes cause hc)
  | received hm hi hev hre =>
    exact hap _ _ _ (h.relays _ (mem_of_getElem? hm)) (confined_packetCause hno hm hi hev hre)
  | routed hm hl =>
    apply hap _ _ _ (h.relays _ hm)
    apply h.loop
    rw [hl]
    exact mem_singleton_self _
  | @left old hm =>
    intro cause hc
    have he : Relay.Keeps old { old with phase := .ended } none := .ofPhase rfl
    exact h.relays old hm cause (he.causes cause hc)

theorem queues_confined (h : Held s) {q : QueuedFrame} (hq : Queues orig ident s e q) :
    CauseConfined s.versions q.cause := by
  cases hq with
  | lookup hm hr =>
    rcases (Lookup.queues_react hr q rfl).2 with ⟨hc,-⟩ | ⟨hc,-⟩
    · rw [hc]
      exact confined_broker _
    · rw [hc]
      intro op rcv he
      cases he
  | relay hm hr =>
    rcases ((Relay.keeps_react hr).queued q rfl).2 with ⟨hc,-⟩ | ⟨hh,-⟩
    · rw [hc]
      exact confined_broker _
    · exact h.relays _ hm _ hh
  | error hc hk => exact hc ▸ confined_broker _
  | healthAck hev hf hc hk => exact hc ▸ confined_broker _
  | identityResult hl hc hk => exact hc ▸ confined_broker _

theorem loopFrom_confined (h : Held s) (hn : Noticed s e) {loop : HostBroker.Loop}
    (hl : LoopFrom s e loop) : ∀ cause ∈ loopCauses loop, CauseConfined s.versions cause := by
  intro cause hc
  cases hl with
  | kept => exact h.loop cause hc
  | plain hp =>
    rw [loopCauses_of_plain hp] at hc
    cases hc
  | admitted he hk | connecting he hk | identifying hlo hk => cases hc
  | routing hm hi he hr =>
    cases mem_singleton.mp hc
    exact confined_packetCause hn hm hi he hr
  | checking hm ha hep | passed hm ha =>
    cases mem_singleton.mp hc
    exact h.queued _ hm
  | released hlo =>
    apply h.loop
    rw [hlo]
    exact hc
  | denied hb hk =>
    cases mem_singleton.mp hc
    exact hb ▸ confined_broker _

theorem Held.step (h : Held s) (hn : Noticed s e) {t : State}
    (he : Effects orig ident s e t) : Held t := by
  obtain ⟨extra,het⟩ : ∃ extra, t.versions = s.versions++extra := by
    rcases he.versions with hs | ⟨_,_,policy,-,-,hne⟩
    · exact ⟨[],by simpa using hs⟩
    · exact ⟨[policy],hne⟩
  refine ⟨?_,?_,?_,?_⟩
  · intro relay hm c hc
    obtain ⟨bef,ha,hr⟩ := he.tasks _ hm
    rw [het]
    cases hr with
    | same => exact (advances_confined h hn ha c hc).later
    | relay old =>
      have hh := (Relay.keeps_sent old).causes c hc
      exact (advances_confined h hn ha c hh).later
  · intro q hm
    rw [het]
    rcases he.queued q hm with hm | hq
    · exact (h.queued q hm).later
    · exact (queues_confined h hq).later
  · intro c hc
    rw [het]
    exact (loopFrom_confined h hn he.loop c hc).later
  · intro wr hm
    rw [het]
    rcases he.mem_written hm with hm | ⟨held,hw⟩
    · exact (h.written wr hm).later
    · apply CauseConfined.later
      apply h.loop
      rw [hw]
      exact mem_singleton_self _

end step

/-- If every packet that arrives after a change finds a relay that has noticed it, then no
packet received after its stream's grant changed is forwarded or answered. -/
theorem confined_of_noticed {requestOrigin : Bytes → Option HttpsOrigin}
    {identity : CredentialLeaseIdentity} {backend : LiveCredentialBackend} {events : List Event}
    {s : State}
    (h : EventRun.run (State.step requestOrigin identity) (State.start backend) events = some s)
    (hnoticed : EventRun.Along (State.step requestOrigin identity) Noticed (State.start backend)
      events) : Confined s := by
  have hst : Held (State.start backend) := by
    refine ⟨?_,?_,?_,?_⟩
    · exact nofun
    · intro q hm
      cases hm
    all_goals exact nofun
  have hh := EventRun.run_invariant_along
    (fun _ _ _ hs hco ht => hs.step hco (effects_step ht)) hst hnoticed h
  refine ⟨?_,?_⟩
  · intro r f op rcv hm hf
    have hc := Relay.mem_causes.mpr (.inr (.inl ⟨f,hf⟩))
    exact hh.relays r hm _ hc op rcv rfl
  · intro wr op rcv hm hc
    exact hh.written wr hm op rcv hc

/-- A supervisor whose lease grants one agent socket. -/
def sampleBackend : LiveCredentialBackend :=
  .new sampleLease sampleGrants none

def exchange : List Event :=
  [.loop (.receive ⟨.streamData,2,[0,0,0,1,11],by decide,@rfl _ false⟩),.relay 0 .take,
    .relay 0 (.wrote true),.relay 0 (.replied [0,0,0,1,12]),.loop .dequeue,
    .loop .recheck,.loop .wrote]

theorem confined_of_noticed_exchange : ∃ s,
    EventRun.run (State.step (fun _ => none) sampleLease) (State.start sampleBackend)
      ([.loop (.receive ⟨.agentOpen,2,[],by decide,by decide⟩),.loop .connected] ++
        exchange++[.reconcile 2 .none]) = some s ∧
      s.written.length = 1 ∧ Confined s :=
  Fallible.exists_some_and (P := fun s => s.written.length = 1) (by decide +kernel) fun _ hs hl =>
    ⟨hl,confined_of_noticed hs (by decide +kernel)⟩

/-- The grant is disabled and given again between the opening and the packet. The packet
is forwarded all the same, and its response returned. -/
theorem forwarded_after_regrant : ∃ s,
    EventRun.run (State.step (fun _ => none) sampleLease) (State.start sampleBackend)
      ([.loop (.receive ⟨.agentOpen,2,[],by decide,by decide⟩),.loop .connected,.reconcile 2 .none,
        .reconcile 3 sampleGrants]++exchange) = some s ∧
      (∃ relay frame, Task.relay relay ∈ s.tasks ∧ (frame, .packet 0 2) ∈ relay.forwarded) ∧
      (∃ written ∈ s.written, written.frame.kind = .streamData ∧ written.cause = .packet 0 2) ∧
      ¬Unchanged s.versions 0 2 ∧ ¬Confined s := by
  refine Fallible.exists_some_and (P := fun s =>
    (s.tasks.any fun tsk => match tsk with
      | .relay relay => relay.forwarded.any fun p => p.2 == .packet 0 2
      | .lookup _ => false) = true ∧
    (∃ written ∈ s.written, written.frame.kind = .streamData ∧ written.cause = .packet 0 2) ∧
    ¬Unchanged s.versions 0 2) (by decide +kernel) fun s _ hfa => ?_
  obtain ⟨ht,hw,hc⟩ := hfa
  obtain ⟨tsk,hm,ht⟩ := any_eq_true.mp ht
  cases tsk with
  | lookup lookup => cases ht
  | relay relay =>
    obtain ⟨⟨frame,c⟩,hf,hp⟩ := any_eq_true.mp ht
    cases eq_of_beq hp
    refine ⟨⟨relay,frame,hm,hf⟩,hw,hc,?_⟩
    intro hco
    exact hc (hco.forwarded relay frame 0 2 hm hf)

end Cdenv.AgentRevocation
