import Cdenv.ForwardingSupervisor

/-!
# The control loop of a supervisor

A supervisor takes the connections to its control socket one after the other. From each it
reads one bounded line, answers it, and goes on unless the request was an authenticated one
to go down. Whatever fails on the way ends the loop, and with the loop the process gives up
its forwards and its credential transport.

The codec of requests is a parameter. An answer is small and finds room in the buffer of an open
connection, and encoding it does not fail.
-/
namespace Cdenv.ControlLoop
open TextScan Identity Inspection WorkspaceRecord ForwardingSupervisor Credentials
open CredentialBackend (CredentialLeaseIdentity LiveCredentialBackend)

def maximumControlMessageBytes : ℕ := 8*1024

def newline : UInt8 := 10

inductive ControlCommand where
  | status | down
  | reconcile (revision : ℕ) (grants : CredentialGrants)

structure ControlRequest where
  command : ControlCommand
  claim : SupervisorClaim
  supervisorProtocol : ℕ
  token : Text

structure SupervisorState where
  claim : SupervisorClaim
  (supervisorProtocol pid : ℕ)
  listeners : List ForwardingEndpoint
  credentialLease : Option CredentialLeaseIdentity
  token : Text

structure ControlResponse where
  accepted : Bool
  state : Option SupervisorState
  credentialRevision : Option ℕ
  error : Option String

/-- Every part of the identity, the protocol and the token. -/
def requestMatches (request : ControlRequest) (state : SupervisorState) : Bool :=
  request.claim.installation == state.claim.installation &&
    request.claim.workspace == state.claim.workspace &&
    request.claim.generation == state.claim.generation &&
    request.claim.hostBuildId == state.claim.hostBuildId &&
    request.claim.agentBuildId == state.claim.agentBuildId &&
    request.claim.agentProtocol == state.claim.agentProtocol &&
    request.supervisorProtocol == state.supervisorProtocol &&
    request.token == state.token

/-- How a stream goes on after the bytes that were sent. -/
inductive Remainder where
  | ends | silent | fails

/-- What a peer does: the bytes it sends, how its stream goes on after them, and whether its end
is still open when the answer is written. -/
structure Connection where
  /-- `accept` has returned the connection. -/
  taken : Bool
  sent : List UInt8
  remainder : Remainder
  /-- The peer has not closed its end when the answer is written. -/
  stays : Bool

inductive Reading where
  | bytes (read : List UInt8)
  | blocked | failed

def throughNewline : List UInt8 → List UInt8
  | [] => []
  | byte::rest => if byte = newline then [byte] else byte::throughNewline rest

/-- `read_until` a newline on a stream that is cut one byte after the allowed length. -/
def Connection.read (c : Connection) : Reading :=
  let window := c.sent.take (maximumControlMessageBytes+1)
  if newline ∈ window then .bytes (throughNewline window)
  else if maximumControlMessageBytes < c.sent.length then .bytes window
  else
    match c.remainder with
    | .ends => .bytes window
    | .silent => .blocked
    | .fails => .failed

section
variable (decode : List UInt8 → Option ControlRequest)

def parseRequest (bytes : List UInt8) : Option ControlRequest :=
  if maximumControlMessageBytes < bytes.length ∨ bytes.getLast? ≠ some newline then none
  else decode bytes

variable (state : SupervisorState)

/-- The answer to a request, whether the supervisor goes down, and the credential authority
afterwards. -/
def respond (backend : Option LiveCredentialBackend) (request : Option ControlRequest) :
    ControlResponse × Bool × Option LiveCredentialBackend :=
  let refused (reason : String) : ControlResponse := ⟨false,none,none,some reason⟩
  match request.filter (requestMatches · state) with
  | none => (refused "identity or authentication mismatch", false, backend)
  | some request =>
    match request.command with
    | .status => (⟨true,some state,backend.map (·.policy.revision),none⟩, false, backend)
    | .down => (⟨true,some state,none,none⟩, true, backend)
    | .reconcile revision grants =>
      match backend with
      | some live =>
        match live.reconcile revision grants with
        | .ok next =>
          (⟨true,some state,some next.policy.revision,none⟩, false, some next)
        | .error reason => (refused reason, false, backend)
      | none =>
        if grants.isEmpty then (⟨true,some state,some revision,none⟩, false, none)
        else (refused "credential transport is not enrolled; run cdenv up", false, none)

/-- Where the loop is after some connections. -/
inductive Progress where
  | accepting (backend : Option LiveCredentialBackend)
  /-- It waits for the rest of a line. -/
  | blocked
  | returned (result : Except ForwardingSupervisorError Unit)

/-- `handle_control`, and what the loop makes of its result. -/
def handleControl (backend : Option LiveCredentialBackend) (c : Connection) : Progress :=
  if !c.taken then .returned (.error .control)
  else
    match c.read with
    | .failed => .returned (.error .control)
    | .blocked => .blocked
    | .bytes bytes =>
      let (_, down, next) := respond state backend (parseRequest decode bytes)
      if !c.stays then .returned (.error .control)
      else if down then .returned (.ok ())
      else .accepting next

def controlLoop (backend : Option LiveCredentialBackend) : List Connection → Progress
  | [] => .accepting backend
  | c::rest =>
    match handleControl decode state backend c with
    | .accepting next => controlLoop next rest
    | ended => ended

/-- What the peer presents, if its line is read, is not the identity and token of the process. -/
def Connection.Unauthenticated (c : Connection) : Prop :=
  ∀ bytes, c.read = .bytes bytes →
    ∀ request, parseRequest decode bytes = some request → requestMatches request state = false

/-- The connection is served to its end: it was accepted, its line, its length or its stream
ends, and the peer is still there for the answer. -/
def Connection.Served (c : Connection) : Prop :=
  c.taken = true ∧
    (newline ∈ c.sent.take (maximumControlMessageBytes+1) ∨
      maximumControlMessageBytes < c.sent.length ∨ c.remainder = .ends) ∧
    c.stays = true

variable {decode state} {backend : Option LiveCredentialBackend} {c : Connection}

theorem exists_read_iff : (∃ bs, c.read = .bytes bs) ↔
      newline ∈ c.sent.take (maximumControlMessageBytes+1) ∨
        maximumControlMessageBytes < c.sent.length ∨ c.remainder = .ends := by
  unfold Connection.read
  by_cases hl : newline ∈ c.sent.take (maximumControlMessageBytes+1)
  · simp [hl]
  · by_cases hlo : maximumControlMessageBytes < c.sent.length
    · simp [hl,hlo]
    · cases hr : c.remainder <;> simp [hl,hlo]

theorem respond_of_unauthenticated {req : Option ControlRequest}
    (h : ∀ r, req = some r → requestMatches r state = false) :
    respond state backend req =
      (⟨false,none,none,some "identity or authentication mismatch"⟩, false, backend) := by
  have hn : req.filter (requestMatches · state) = none := by
    rw [Option.filter_eq_none_iff]
    intro r hr
    rw [h r hr]
    simp
  unfold respond
  rw [hn]

theorem handleControl_eq_accepting (h : c.Unauthenticated decode state)
    {next : Option LiveCredentialBackend} :
    handleControl decode state backend c = .accepting next ↔ c.Served ∧ next = backend := by
  have hr := @exists_read_iff c
  unfold handleControl Connection.Served
  rw [← hr]
  cases ht : c.taken with
  | false => simp
  | true =>
    cases hre : c.read with
    | failed | blocked => simp
    | bytes bytes =>
      have hrs := @respond_of_unauthenticated state backend _ (h bytes hre)
      cases hs : c.stays <;> simp [hrs,eq_comm]

/-- The loop goes through any number of unauthenticated peers, with its credential authority
as it was, exactly if each of them is served to its end. -/
theorem keeps_accepting_iff {connections : List Connection}
    (h : ∀ c ∈ connections, c.Unauthenticated decode state) :
    controlLoop decode state backend connections = .accepting backend ↔
      ∀ c ∈ connections, c.Served := by
  induction connections with
  | nil => simp [controlLoop]
  | cons c xs ih =>
    have hc := @handleControl_eq_accepting decode state backend c (h c (List.mem_cons_self ..))
    rw [controlLoop,List.forall_mem_cons,← ih (List.forall_mem_cons.mp h).2]
    split
    case h_1 next hh =>
      obtain ⟨hs,rfl⟩ := hc.mp hh
      simp [hs]
    case h_2 ho =>
      constructor
      · intro hl
        exact absurd hl (ho backend)
      · rintro ⟨hs,-⟩
        exact absurd (hc.mpr ⟨hs,rfl⟩) (ho backend)

end

section sample

def sampleState : SupervisorState where
  claim := ⟨sampleToken,.sample,.first,sampleToken,sampleToken,⟨1,Nat.one_pos⟩⟩
  supervisorProtocol := 1
  pid := 4242
  listeners := []
  credentialLease := none
  token := "secret"

def patient : Connection := ⟨true,[],.ends,true⟩

def hasty : Connection := ⟨true,[],.ends,false⟩

/-- A line is read as a request to go down that presents it as the token. -/
def sampleDecode (line : List UInt8) : Option ControlRequest :=
  some ⟨.down,sampleState.claim,1,line.dropLast.map fun byte => Char.ofNat byte.toNat⟩

/-- The peer sends a token that is not the supervisor's. -/
def guessing : Connection := ⟨true,utf8 "guess\n",.silent,true⟩

theorem keeps_accepting_guessing :
    controlLoop sampleDecode sampleState none [guessing,patient] = .accepting none := by
  refine (keeps_accepting_iff ?_).mpr ?_
  · intro c hc
    rcases List.mem_pair.mp hc with rfl | rfl
    · rintro _ ⟨⟩ _ ⟨⟩
      decide
    · rintro _ ⟨⟩ _ ⟨⟩
  · intro c hc
    rcases List.mem_pair.mp hc with rfl | rfl
    · exact ⟨rfl,.inl (by decide),rfl⟩
    · exact ⟨rfl,.inr (.inr rfl),rfl⟩

/-- One connection that is closed before its answer ends the loop. -/
theorem loop_returns_after_hasty : hasty.Unauthenticated (fun _ => none) sampleState ∧
      controlLoop (fun _ => none) sampleState none [hasty] = .returned (.error .control) := by
  refine ⟨?_,rfl⟩
  simp [Connection.Unauthenticated,parseRequest]

end sample
end Cdenv.ControlLoop
