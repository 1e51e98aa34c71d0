import Cdenv.BoundedOutbox
import Cdenv.CredentialBackend

/-!
# The host credential broker

The dispatch loop of the broker, its lookup and relay tasks and the live policy beside
it, as one state and its events. An event is what happens between two suspension points
of one party, so a run of events is an interleaving. Where the code reads the policy
twice in a row, a reconcile may fall between the two reads and they are two events.

How a lookup body names its origin is a parameter. Tasks do not panic, and the handshake
lies before the first state.
-/
namespace Cdenv.HostBroker
open Fallible BrokerProtocol Credentials CredentialBackend

inductive HostCredentialBrokerError where
  | protocol (error : BrokerProtocolError)
  | io | timeout | saturated
deriving DecidableEq

/-- What a frame answers, with the moments that matter for it: when a lookup captured its
epoch, when a packet's stream was opened and when the packet was received. -/
inductive Cause where
  | broker
  | lookup (request : BrokerFrame) (captured : ℕ)
  | packet (opened received : ℕ)
deriving DecidableEq

structure QueuedFrame where
  frame : BrokerFrame
  authorization : Option (BrokerFrameKind × ℕ)
  cause : Cause
deriving DecidableEq

def QueuedFrame.amount (queued : QueuedFrame) : ℕ := max queued.frame.payload.length 1

/-- A frame on the wire and the moment of the check before it. -/
structure Written where
  frame : BrokerFrame
  cause : Cause
  checked : ℕ
deriving DecidableEq

inductive LookupPhase where
  | started
  | pending (origin : HttpsOrigin)
  | answered (payload : Bytes)
  | sending | ended
deriving DecidableEq

structure Lookup where
  request : BrokerFrame
  (epoch captured : ℕ)
  phase : LookupPhase

inductive LookupEvent where
  | poll
  | returned (payload : Option Bytes)
  | authorize | expired | revoked

namespace Lookup

/-- A response that does not fit a frame is dropped and the task ends. -/
def respond (lookup : Lookup) (kind : BrokerFrameKind) (payload : Bytes)
    (authorization : Option (BrokerFrameKind × ℕ)) (cause : Cause) :
    Lookup × Option QueuedFrame :=
  match BrokerFrame.new kind lookup.request.streamId payload with
  | .ok frame => ({ lookup with phase := .sending }, some ⟨frame,authorization,cause⟩)
  | .error _ => ({ lookup with phase := .ended }, none)

def refuse (lookup : Lookup) : Lookup × Option QueuedFrame :=
  lookup.respond .error [] none .broker

/-- The revocation watch fires when it reads another epoch or finds the grant gone. -/
def isRevoked (backend : LiveCredentialBackend) (identity : CredentialLeaseIdentity)
    (operation : BrokerFrameKind) (epoch : ℕ) : Bool :=
  backend.policy.authorizationEpoch operation != epoch || !backend.isAuthorized identity operation

/-- One step of the task. The allowlist is read before and after the Git lookup, the
capability once more before the result is made. -/
def react (requestOrigin : Bytes → Option HttpsOrigin) (identity : CredentialLeaseIdentity)
    (backend : LiveCredentialBackend) (lookup : Lookup) (event : LookupEvent) :
    Option (Lookup × Option QueuedFrame) :=
  match lookup.phase, event with
  | .started, .poll =>
    match requestOrigin lookup.request.payload with
    | some origin =>
      if backend.policy.grants.allows origin then
        some ({ lookup with phase := .pending origin }, none)
      else some lookup.refuse
    | none => some lookup.refuse
  | .pending origin, .returned (some payload) =>
    if backend.policy.grants.allows origin then
      some ({ lookup with phase := .answered payload }, none)
    else some lookup.refuse
  | .pending _, .returned none => some lookup.refuse
  | .answered payload, .authorize =>
    if backend.isAuthorized identity .credentialLookup then
      some (lookup.respond .credentialResult payload (some (.credentialLookup, lookup.epoch))
        (.lookup lookup.request lookup.captured))
    else some lookup.refuse
  | .started, .expired | .pending _, .expired => some lookup.refuse
  | .started, .revoked | .pending _, .revoked =>
    if isRevoked backend identity .credentialLookup lookup.epoch then some lookup.refuse
    else none
  | _, _ => none

end Lookup

inductive RelayPhase where
  | waiting
  | writing (cause : Cause) (epoch : ℕ)
  | reading (cause : Cause) (epoch : ℕ)
  | sending (last : Bool)
  | shuttingDown | closing | leaving | ended
deriving DecidableEq

/-- A relay and its input channel. `forwarded` lists the packets handed to the agent. -/
structure Relay where
  streamId : UInt32
  opened : ℕ
  (inbox forwarded : List (BrokerFrame × Cause))
  phase : RelayPhase

inductive RelayEvent where
  | take | tick | disconnected
  | wrote (ok : Bool)
  | replied (response : Bytes)
  | replyFailed | revoked
  | shutDown (ok : Bool)

namespace Relay

def inboxPlaces : ℕ := 8

/-- The receiving end of the input channel exists. It is dropped when the relay returns,
before the task closes the stream and removes its entry. -/
def receives (relay : Relay) : Bool :=
  match relay.phase with
  | .closing | .leaving | .ended => false
  | _ => true

def fail (relay : Relay) : Relay × Option QueuedFrame :=
  match BrokerFrame.new .streamClose relay.streamId [] with
  | .ok frame => ({ relay with phase := .closing }, some ⟨frame,none,.broker⟩)
  | .error _ => ({ relay with phase := .leaving }, none)

/-- A relay that lost its authority closes its stream and returns. -/
def close (relay : Relay) : Relay × Option QueuedFrame :=
  match BrokerFrame.new .streamClose relay.streamId [] with
  | .ok frame => ({ relay with phase := .sending true }, some ⟨frame,none,.broker⟩)
  | .error _ => ({ relay with phase := .leaving }, none)

def reply (relay : Relay) (response : Bytes) (cause : Cause) (epoch : ℕ) :
    Relay × Option QueuedFrame :=
  match BrokerFrame.new .streamData relay.streamId response with
  | .ok frame =>
    ({ relay with phase := .sending false }, some ⟨frame,some (.agentOpen, epoch),cause⟩)
  | .error _ => relay.fail

/-- A frame taken from the channel. Packets go to the agent under the epoch read now. -/
def handle (relay : Relay) (epoch : ℕ) (frame : BrokerFrame) (cause : Cause) :
    Relay × Option QueuedFrame :=
  match frame.kind with
  | .streamData =>
    match validateAgentPacket frame.payload with
    | .ok () =>
      ({ relay with
          phase := .writing cause epoch
          forwarded := relay.forwarded++[(frame, cause)] }, none)
    | .error _ => relay.fail
  | .streamClose | .cancel => ({ relay with phase := .shuttingDown }, none)
  | _ => relay.fail

/-- One step of the task: `authorized` and `epoch` are what it reads of the policy,
`registered` says whether its sender is still in the table. -/
def react (authorized : Bool) (epoch : ℕ) (registered : Bool) (relay : Relay)
    (event : RelayEvent) : Option (Relay × Option QueuedFrame) :=
  match relay.phase, event with
  | .waiting, .take =>
    match relay.inbox with
    | [] => none
    | (frame, cause)::rest => some ({ relay with inbox := rest }.handle epoch frame cause)
  | .waiting, .tick => if authorized then some (relay, none) else some relay.close
  | .waiting, .disconnected =>
    if relay.inbox.isEmpty && !registered then some relay.fail else none
  | .writing cause captured, .wrote ok =>
    if ok then some ({ relay with phase := .reading cause captured }, none)
    else some relay.fail
  | .reading cause captured, .replied response =>
    if authorized then some (relay.reply response cause captured) else some relay.close
  | .reading _ _, .replyFailed => some relay.fail
  | .reading _ captured, .revoked =>
    if epoch != captured || !authorized then some relay.close else none
  | .shuttingDown, .shutDown ok =>
    if ok then some ({ relay with phase := .leaving }, none) else some relay.fail
  | _, _ => none

def sent (relay : Relay) : Relay :=
  match relay.phase with
  | .sending last => { relay with phase := if last then .leaving else .waiting }
  | .closing => { relay with phase := .leaving }
  | _ => relay

end Relay

inductive Sender where
  | loop
  | task (index : ℕ)

inductive Task where
  | lookup (lookup : Lookup)
  | relay (relay : Relay)

/-- An entry of the input table. A second open of a stream leaves a sender there whose
receiver is gone. -/
inductive Recipient where
  | relay (task : ℕ)
  | dropped
deriving DecidableEq

inductive Loop where
  | selecting
  | admitting (request : BrokerFrame)
  | connecting (request : BrokerFrame) (opened : ℕ)
  | identifying (request : BrokerFrame) (epoch : ℕ)
  | routing (task : ℕ) (frame : BrokerFrame) (cause : Cause)
  | sending
  | checking (queued : QueuedFrame) (checked : ℕ)
  | writing (written : Written) (held : ℕ)
  | stopped (result : Except HostCredentialBrokerError Unit)
deriving DecidableEq

inductive LoopEvent where
  | receive (frame : BrokerFrame)
  | inputEnded
  | inputFailed (error : HostCredentialBrokerError)
  | capture | connected | connectFailed
  | metadata (payload : Option Bytes)
  | identityRevoked | route | dequeue | recheck | wrote | writeFailed

/-- What lies outside is an argument: the bytes of a Git answer, of an agent's response and of the
identity metadata, whether a connection or a write succeeds, when a deadline passes. -/
inductive Event where
  | reconcile (revision : ℕ) (grants : CredentialGrants)
  | loop (event : LoopEvent)
  | lookup (task : ℕ) (event : LookupEvent)
  | relay (task : ℕ) (event : RelayEvent)
  | leave (task : ℕ)
  | grantBytes | grantPlace

/-- Policy versions are numbered in the order in which they were in force; the number of the
current one is the moment. Causes, moments, the packets handed to an agent and the log of written
frames are read by no step. -/
structure State where
  backend : LiveCredentialBackend
  past : List LiveCredentialPolicy
  loop : Loop
  outbox : Outbox Sender QueuedFrame
  (freeHelpers freeStreams : ℕ)
  inputs : UInt32 → Option Recipient
  tasks : List Task
  written : List Written

namespace State

/-- The loop is entered with empty queues and all permits. -/
def start (backend : LiveCredentialBackend) : State :=
  { backend
    past := []
    loop := .selecting
    outbox := .empty maxBrokerQueuedBytes
    freeHelpers := maxBrokerHelpers
    freeStreams := maxBrokerStreams
    inputs := fun _ => none
    tasks := []
    written := [] }

def now (s : State) : ℕ := s.past.length

/-- All policies that were in force, oldest first; the current one has number `now`. -/
def versions (s : State) : List LiveCredentialPolicy := s.past++[s.backend.policy]

def stop (s : State) (error : HostCredentialBrokerError) : State :=
  { s with loop := .stopped (.error error) }

def setTask (s : State) (index : ℕ) (task : Task) : State :=
  { s with tasks := s.tasks.set index task }

def resume (s : State) (sender : Sender) : State :=
  match sender with
  | .loop => { s with loop := .selecting }
  | .task index =>
    match s.tasks[index]? with
    | some (.lookup lookup) =>
      { s.setTask index (.lookup { lookup with phase := .ended }) with
        freeHelpers := s.freeHelpers+1 }
    | some (.relay relay) => s.setTask index (.relay relay.sent)
    | none => s

/-- `send_queued_scoped`: the sender goes on at once or stays suspended. -/
def send (s : State) (sender : Sender) (queued : QueuedFrame) : State :=
  let offered := s.outbox.offer maxBrokerQueuedFrames QueuedFrame.amount sender queued
  let next := { s with outbox := offered.1 }
  if offered.2 then next.resume sender else next

def reply (s : State) (kind : BrokerFrameKind) (streamId : UInt32) (payload : Bytes)
    (authorization : Option (BrokerFrameKind × ℕ)) : State :=
  match BrokerFrame.new kind streamId payload with
  | .ok frame => { s with loop := .sending }.send .loop ⟨frame,authorization,.broker⟩
  | .error error => s.stop (.protocol error)

def sendError (s : State) (streamId : UInt32) : State := s.reply .error streamId [] none

/-- A frame is handed to a relay unless its channel is full or its receiver gone. -/
def deliver (s : State) (index : ℕ) (frame : BrokerFrame) (cause : Cause) : Option State :=
  match s.tasks[index]? with
  | some (.relay relay) =>
    if relay.receives then
      if relay.inbox.length < Relay.inboxPlaces then
        some { s.setTask index (.relay { relay with inbox := relay.inbox++[(frame, cause)] })
          with loop := .selecting }
      else none
    else some (s.stop (.protocol .unknownStream))
  | _ => some (s.stop (.protocol .unknownStream))

def packetCause (s : State) (relay : Relay) (frame : BrokerFrame) : Cause :=
  if frame.kind = .streamData then .packet relay.opened s.now else .broker

def route (s : State) (frame : BrokerFrame) : State :=
  match s.inputs frame.streamId with
  | some (.relay index) =>
    match s.tasks[index]? with
    | some (.relay relay) =>
      let cause := s.packetCause relay frame
      (s.deliver index frame cause).getD { s with loop := .routing index frame cause }
    | _ => s.stop (.protocol .unknownStream)
  | _ => s.stop (.protocol .unknownStream)

def deny (s : State) (queued : QueuedFrame) (operation : BrokerFrameKind) (checked : ℕ) : State :=
  let kind := if operation = .agentOpen then .streamClose else .error
  match BrokerFrame.new kind queued.frame.streamId [] with
  | .ok frame => { s with loop := .writing ⟨frame,.broker,checked⟩ queued.amount }
  | .error error => s.stop (.protocol error)

/-- A new relay, unless its stream is open already. Then the new sender replaces the old
one in the table and its receiver is dropped. -/
def openRelay (s : State) (request : BrokerFrame) (opened : ℕ) : State :=
  let id := request.streamId
  match s.inputs id with
  | some _ =>
    { s with
      inputs := Function.update s.inputs id (some .dropped)
      freeStreams := s.freeStreams+1 }.sendError id
  | none =>
    { s with
      loop := .selecting
      inputs := Function.update s.inputs id (some (.relay s.tasks.length))
      tasks := s.tasks++[.relay ⟨id,opened,[],[],.waiting⟩] }

section
variable (requestOrigin : Bytes → Option HttpsOrigin) (identity : CredentialLeaseIdentity)

/-- What a received frame starts, by its kind. -/
def dispatch (s : State) (frame : BrokerFrame) : State :=
  match frame.kind with
  | .credentialLookup =>
    if !s.backend.isAuthorized identity .credentialLookup then s.sendError frame.streamId
    else if s.freeHelpers = 0 then s.stop .saturated
    else { s with loop := .admitting frame, freeHelpers := s.freeHelpers - 1 }
  | .agentOpen =>
    if !s.backend.isAuthorized identity .agentOpen then s.sendError frame.streamId
    else if s.freeStreams = 0 then s.sendError frame.streamId
    else { s with loop := .connecting frame s.now, freeStreams := s.freeStreams - 1 }
  | .streamData | .streamClose | .cancel => s.route frame
  | .identityRequest =>
    if !s.backend.isAuthorized identity .identityRequest then s.sendError frame.streamId
    else { s with loop := .admitting frame }
  | .health => s.reply .healthAck 0 [] none
  | .stop => { s with loop := .stopped (.ok ()) }
  | _ => s.stop (.protocol .kind)

def capture (s : State) (request : BrokerFrame) : State :=
  let epoch := s.backend.policy.authorizationEpoch request.kind
  if request.kind = .identityRequest then { s with loop := .identifying request epoch }
  else
    { s with
      loop := .selecting
      tasks := s.tasks++[.lookup ⟨request,epoch,s.now,.started⟩] }

/-- The first half of the check before a write: the epoch of the frame's operation. -/
def compareEpoch (s : State) (queued : QueuedFrame) : State :=
  match queued.authorization with
  | none => { s with loop := .writing ⟨queued.frame,queued.cause,s.now⟩ queued.amount }
  | some (operation, epoch) =>
    if s.backend.policy.authorizationEpoch operation ≠ epoch then s.deny queued operation s.now
    else { s with loop := .checking queued s.now }

/-- The second half: the capability itself. -/
def recheck (s : State) (queued : QueuedFrame) (checked : ℕ) : State :=
  match queued.authorization with
  | some (operation, _) =>
    if s.backend.isAuthorized identity operation then
      { s with loop := .writing ⟨queued.frame,queued.cause,checked⟩ queued.amount }
    else s.deny queued operation checked
  | none => { s with loop := .writing ⟨queued.frame,queued.cause,checked⟩ queued.amount }

/-- One step of the loop; `none` where the event is not possible. -/
def loopStep (s : State) (event : LoopEvent) : Option State :=
  match s.loop, event with
  | .selecting, .receive frame => some (s.dispatch identity frame)
  | .selecting, .inputEnded => some { s with loop := .stopped (.ok ()) }
  | .selecting, .inputFailed error => some (s.stop error)
  | .admitting request, .capture => some (s.capture request)
  | .connecting request opened, .connected =>
    if s.backend.sshAgent.isSome then some (s.openRelay request opened) else none
  | .connecting request _, .connectFailed =>
    some ({ s with freeStreams := s.freeStreams+1 }.sendError request.streamId)
  | .identifying request epoch, .metadata (some payload) =>
    if s.backend.isAuthorized identity .identityRequest then
      some (s.reply .identityResult request.streamId payload (some (.identityRequest, epoch)))
    else some (s.sendError request.streamId)
  | .identifying request _, .metadata none => some (s.sendError request.streamId)
  | .identifying request epoch, .identityRevoked =>
    if Lookup.isRevoked s.backend identity .identityRequest epoch then
      some (s.sendError request.streamId)
    else none
  | .routing index frame cause, .route => s.deliver index frame cause
  | .selecting, .dequeue =>
    match s.outbox.take with
    | some (queued, rest) => some ({ s with outbox := rest }.compareEpoch queued)
    | none => none
  | .checking queued checked, .recheck => some (s.recheck identity queued checked)
  | .writing written held, .wrote =>
    some { s with
      loop := .selecting
      outbox := s.outbox.release held
      written := s.written++[written] }
  | .writing _ _, .writeFailed => some (s.stop .io)
  | _, _ => none

/-- A task's step: its new value, and the frame it queues. -/
def taskStep (s : State) (index : ℕ) (task : Task) : Option QueuedFrame → State
  | some queued => (s.setTask index task).send (.task index) queued
  | none => s.setTask index task

def lookupStep (s : State) (index : ℕ) (event : LookupEvent) : Option State :=
  match s.tasks[index]? with
  | some (.lookup lookup) =>
    match lookup.react requestOrigin identity s.backend event with
    | some (next, queued) =>
      let freed := if next.phase = .ended then 1 else 0
      some ({ s with freeHelpers := s.freeHelpers+freed }.taskStep index (.lookup next) queued)
    | none => none
  | _ => none

def relayStep (s : State) (index : ℕ) (event : RelayEvent) : Option State :=
  match s.tasks[index]? with
  | some (.relay relay) =>
    match relay.react (s.backend.isAuthorized identity .agentOpen)
        (s.backend.policy.authorizationEpoch .agentOpen)
        (s.inputs relay.streamId == some (.relay index)) event with
    | some (next, queued) => some (s.taskStep index (.relay next) queued)
    | none => none
  | _ => none

/-- A finished relay removes its stream's entry, whatever is there, and frees its permit. -/
def leave (s : State) (index : ℕ) : Option State :=
  match s.tasks[index]? with
  | some (.relay relay) =>
    if relay.phase = .leaving then
      some { s.setTask index (.relay { relay with phase := .ended }) with
        inputs := Function.update s.inputs relay.streamId none
        freeStreams := s.freeStreams+1 }
    else none
  | _ => none

def isStopped (s : State) : Bool :=
  match s.loop with
  | .stopped _ => true
  | _ => false

/-- One event. A stopped loop has aborted its tasks; only the policy goes on. -/
def step (s : State) (event : Event) : Option State :=
  match event with
  | .reconcile revision grants =>
    match s.backend.reconcile revision grants with
    | .ok backend => some { s with backend, past := s.past++[s.backend.policy] }
    | .error _ => none
  | .loop event => s.loopStep identity event
  | .lookup index event =>
    if s.isStopped then none else s.lookupStep requestOrigin identity index event
  | .relay index event => if s.isStopped then none else s.relayStep identity index event
  | .leave index => if s.isStopped then none else s.leave index
  | .grantBytes =>
    if s.isStopped then none
    else
      match s.outbox.grantBytes maxBrokerQueuedFrames QueuedFrame.amount with
      | some (sender, outbox, queued) =>
        let next := { s with outbox }
        some (if queued then next.resume sender else next)
      | none => none
  | .grantPlace =>
    if s.isStopped then none
    else
      match s.outbox.grantPlace maxBrokerQueuedFrames with
      | some (sender, outbox) => some ({ s with outbox }.resume sender)
      | none => none

end
end State
end Cdenv.HostBroker
