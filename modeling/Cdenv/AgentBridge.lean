import Cdenv.BoundedOutbox
import Cdenv.BrokerProtocol

/-!
# The credential bridge in the container

The dispatch loop of the bridge, the two accept loops it polls and one task for each
local connection, as one state and its events. The setup of the sockets and the handshake
lie before the first state, and tasks do not panic.
-/
namespace Cdenv.AgentBridge
open Fallible BrokerProtocol

inductive CredentialBridgeError where
  | protocol (error : BrokerProtocolError)
  | io | timeout
deriving DecidableEq

inductive EndpointKind where
  | credential | agent
deriving DecidableEq

inductive AfterSend where
  | reads | awaits | leaves
deriving DecidableEq

inductive ClientPhase where
  | opening | reading
  | sending (next : AfterSend)
  | awaiting | writing | shuttingDown | cancelling | leaving | ended
deriving DecidableEq

structure Client where
  kind : EndpointKind
  streamId : UInt32
  inbox : List BrokerFrame
  phase : ClientPhase

inductive ClientEvent where
  | begin
  | request (payload : Bytes)
  | packet (payload : Bytes)
  | finished | readFailed | take | expired
  | wrote (ok : Bool)
  | shutDown (ok : Bool)

namespace Client

def inboxPlaces : ℕ := 8

/-- The receiving end of the channel exists; it is dropped when the service returns. -/
def receives (client : Client) : Bool :=
  match client.phase with
  | .cancelling | .leaving | .ended => false
  | _ => true

def fail (client : Client) : Client × Option BrokerFrame :=
  match BrokerFrame.new .cancel client.streamId [] with
  | .ok frame => ({ client with phase := .cancelling }, some frame)
  | .error _ => ({ client with phase := .leaving }, none)

def request (client : Client) (kind : BrokerFrameKind) (payload : Bytes) (next : AfterSend) :
    Client × Option BrokerFrame :=
  match BrokerFrame.new kind client.streamId payload with
  | .ok frame => ({ client with phase := .sending next }, some frame)
  | .error _ => client.fail

def handle (client : Client) (frame : BrokerFrame) : Client × Option BrokerFrame :=
  match client.kind with
  | .credential =>
    if frame.kind = .credentialResult then ({ client with phase := .writing }, none)
    else ({ client with phase := .shuttingDown }, none)
  | .agent =>
    match frame.kind with
    | .streamData =>
      match validateAgentPacket frame.payload with
      | .ok () => ({ client with phase := .writing }, none)
      | .error _ => client.fail
    | .streamClose | .error => ({ client with phase := .shuttingDown }, none)
    | _ => client.fail

/-- One step of the task. A credential client sends one request and waits for one reply;
an agent client opens its stream and then exchanges packets, reading the next one only
after a reply. Neither looks at its channel while it reads from its socket. -/
def react (client : Client) (event : ClientEvent) : Option (Client × Option BrokerFrame) :=
  match client.kind, client.phase, event with
  | .credential, .opening, .begin => some ({ client with phase := .reading }, none)
  | .agent, .opening, .begin => some (client.request .agentOpen [] .reads)
  | .credential, .reading, .request payload =>
    some (client.request .credentialLookup payload .awaits)
  | .agent, .reading, .packet payload =>
    if validateAgentPacket payload = .ok () ∧ payload.length ≤ maxBrokerFrameBytes then
      some (client.request .streamData payload .awaits)
    else some client.fail
  | .agent, .reading, .finished => some (client.request .streamClose [] .leaves)
  | _, .reading, .readFailed => some client.fail
  | _, .awaiting, .take =>
    match client.inbox with
    | [] => none
    | frame::rest => some ({ client with inbox := rest }.handle frame)
  | .agent, .awaiting, .expired => some client.fail
  | kind, .writing, .wrote ok =>
    if ok then
      some ({ client with phase := if kind = .agent then .reading else .shuttingDown }, none)
    else some client.fail
  | _, .shuttingDown, .shutDown ok =>
    if ok then some ({ client with phase := .leaving }, none) else some client.fail
  | _, _, _ => none

def sent (client : Client) : Client :=
  match client.phase with
  | .sending .reads => { client with phase := .reading }
  | .sending .awaits => { client with phase := .awaiting }
  | .sending .leaves => { client with phase := .leaving }
  | .cancelling => { client with phase := .leaving }
  | _ => client

end Client

inductive Sender where
  | loop
  | client (index : ℕ)

/-- Where the dispatch loop is suspended. -/
inductive Loop where
  | selecting
  | routing (client : ℕ) (frame : BrokerFrame)
  | sending
  | writing (frame : BrokerFrame) (held : ℕ)
  | stopped (result : Except CredentialBridgeError Unit)
deriving DecidableEq

/-- What happens between two suspension points of one party. Bytes and disconnections of the local
clients, deadlines and the success of writes are arguments. -/
inductive Event where
  | receive (frame : BrokerFrame)
  | inputEnded
  | inputFailed (error : CredentialBridgeError)
  | route | dequeue | wrote | writeFailed
  | accept (kind : EndpointKind)
  | acceptFailed
  | client (index : ℕ) (event : ClientEvent)
  | leave (index : ℕ)
  | grantBytes | grantPlace

structure State where
  loop : Loop
  outbox : Outbox Sender BrokerFrame
  freeStreams : ℕ
  nextStream : UInt32
  recipients : UInt32 → Option ℕ
  clients : List Client

/-- Byte permits of a frame; an empty payload takes one. -/
def amount (frame : BrokerFrame) : ℕ := max frame.payload.length 1

namespace State

/-- The loop is entered with empty queues; stream one was used for the identity. -/
def start : State :=
  { loop := .selecting
    outbox := .empty maxBrokerQueuedBytes
    freeStreams := maxBrokerStreams
    nextStream := 2
    recipients := fun _ => none
    clients := [] }

def stop (s : State) (error : CredentialBridgeError) : State :=
  { s with loop := .stopped (.error error) }

def setClient (s : State) (index : ℕ) (client : Client) : State :=
  { s with clients := s.clients.set index client }

def resume (s : State) (sender : Sender) : State :=
  match sender with
  | .loop => { s with loop := .selecting }
  | .client index =>
    match s.clients[index]? with
    | some client => s.setClient index client.sent
    | none => s

/-- `send_queued`: the sender goes on at once or stays suspended. -/
def send (s : State) (sender : Sender) (frame : BrokerFrame) : State :=
  let offered := s.outbox.offer maxBrokerQueuedFrames amount sender frame
  let next := { s with outbox := offered.1 }
  if offered.2 then next.resume sender else next

/-- A frame is handed to a client unless its channel is full or its receiver gone. -/
def deliver (s : State) (index : ℕ) (frame : BrokerFrame) : Option State :=
  match s.clients[index]? with
  | some client =>
    if client.receives then
      if client.inbox.length < Client.inboxPlaces then
        some { s.setClient index { client with inbox := client.inbox++[frame] } with
          loop := .selecting }
      else none
    else some (s.stop (.protocol .unknownStream))
  | none => some (s.stop (.protocol .unknownStream))

def route (s : State) (frame : BrokerFrame) : State :=
  match s.recipients frame.streamId with
  | some index => (s.deliver index frame).getD { s with loop := .routing index frame }
  | none => s.stop (.protocol .unknownStream)

def dispatch (s : State) (frame : BrokerFrame) : State :=
  match frame.kind with
  | .stop => { s with loop := .stopped (.ok ()) }
  | .health =>
    match BrokerFrame.new .healthAck 0 [] with
    | .ok ack => { s with loop := .sending }.send .loop ack
    | .error error => s.stop (.protocol error)
  | .credentialResult | .streamData | .streamClose | .error => s.route frame
  | _ => s.stop (.protocol .kind)

/-- A connection beyond the stream limit is dropped. The stream counter wraps; a number
that is zero or still in use ends the accept loop, and with it the bridge. -/
def accept (s : State) (kind : EndpointKind) : State :=
  if s.freeStreams = 0 then s
  else
    let id := s.nextStream
    let next := { s with freeStreams := s.freeStreams - 1, nextStream := id+1 }
    if id = 0 then next.stop (.protocol .streamId)
    else if (s.recipients id).isSome then next.stop (.protocol .streamLimit)
    else
      { next with
        recipients := Function.update s.recipients id (some s.clients.length)
        clients := s.clients++[⟨kind,id,[],.opening⟩] }

/-- A client's step: its new value, and the frame it queues. -/
def clientStep (s : State) (index : ℕ) (event : ClientEvent) : Option State :=
  match s.clients[index]? with
  | some client =>
    match client.react event with
    | some (next, some frame) => some ((s.setClient index next).send (.client index) frame)
    | some (next, none) => some (s.setClient index next)
    | none => none
  | none => none

/-- A finished client removes its stream's entry and frees its permit. -/
def leave (s : State) (index : ℕ) : Option State :=
  match s.clients[index]? with
  | some client =>
    if client.phase = .leaving then
      some { s.setClient index { client with phase := .ended } with
        recipients := Function.update s.recipients client.streamId none
        freeStreams := s.freeStreams+1 }
    else none
  | none => none

/-- One event. The accept loops run only while the dispatch loop selects; a stopped loop
takes its tasks with it. -/
def step (s : State) (event : Event) : Option State :=
  match s.loop, event with
  | .stopped _, _ => none
  | .selecting, .receive frame => some (s.dispatch frame)
  | .selecting, .inputEnded => some { s with loop := .stopped (.ok ()) }
  | .selecting, .inputFailed error => some (s.stop error)
  | .routing index frame, .route => s.deliver index frame
  | .selecting, .dequeue =>
    match s.outbox.take with
    | some (frame, rest) => some { s with outbox := rest, loop := .writing frame (amount frame) }
    | none => none
  | .writing _ held, .wrote => some { s with loop := .selecting, outbox := s.outbox.release held }
  | .writing _ _, .writeFailed => some (s.stop .io)
  | .selecting, .accept kind => some (s.accept kind)
  | .selecting, .acceptFailed => some (s.stop .io)
  | _, .client index event => s.clientStep index event
  | _, .leave index => s.leave index
  | _, .grantBytes =>
    match s.outbox.grantBytes maxBrokerQueuedFrames amount with
    | some (sender, outbox, queued) =>
      let next := { s with outbox }
      some (if queued then next.resume sender else next)
    | none => none
  | _, .grantPlace =>
    match s.outbox.grantPlace maxBrokerQueuedFrames with
    | some (sender, outbox) => some ({ s with outbox }.resume sender)
    | none => none
  | _, _ => none

/-- The client at the index, if it still receives. -/
def receiver (s : State) (index : ℕ) : Option Client :=
  match s.clients[index]? with
  | some client => if client.receives then some client else none
  | none => none

def target (s : State) (frame : BrokerFrame) : Option Client :=
  match s.recipients frame.streamId with
  | some index => s.receiver index
  | none => none

end State
end Cdenv.AgentBridge
