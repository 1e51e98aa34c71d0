import Cdenv.CredentialStore
import Cdenv.StepLog
import Cdenv.WorkspaceDown

/-!
# The forwarding supervisor of a workspace

A detached process listens for the forwards of a workspace and serves its credential lease.
A lifetime lock admits one at a time. Its control socket answers a request only when the
request names the exact identity of the process and its token, and the process removes
socket and state file when it ends.

The token is random for every start and stands in the state file, so that a request has the
right one exactly when the state file is the one that the process wrote. Sockets and paths of
the process are left out otherwise.
-/
namespace Cdenv.ForwardingSupervisor
open TextScan Fallible Identity Inspection PortPlanning WorkspaceRecord StepLog
open CredentialStore (SupervisorCredentialLease)
open WorkspaceDown (ForwardingStopOutcome)

def firstUnprivilegedPort : ℕ := 1024

inductive ForwardingPlanError where
  | privilegedPort (port : ℕ)
  | duplicateLocalPort (port : ℕ)

def loopback (port : PortNumber) : ForwardingEndpoint :=
  ⟨.v4 [127,0,0,1],port,rfl⟩

def targetHost : ForwardTargetHost → Text
  | .containerLoopback => "localhost"
  | .composeService service => service

def declaredForward (forward : ForwardRequest) : DeclaredForward where
  requested := loopback forward.requestedLocal
  targetHost := targetHost forward.targetHost
  targetPort := forward.targetPort
  requireLocalPort := forward.attributes.requireLocalPort
  label := forward.attributes.label
  protocol := match forward.attributes.protocol with
    | none => .tcp
    | some .http => .http
    | some .https => .https

def declareForward (requested : List DeclaredForward) (forward : ForwardRequest) :
    Except ForwardingPlanError (List DeclaredForward) := do
  require (firstUnprivilegedPort ≤ forward.requestedLocal.value)
    (.privilegedPort forward.requestedLocal.value)
  require (!requested.any fun existing =>
      existing.requested.port.value == forward.requestedLocal.value)
    (.duplicateLocalPort forward.requestedLocal.value)
  return requested++[declaredForward forward]

def desiredForwards (plan : PortPlan) : Except ForwardingPlanError (List DeclaredForward) :=
  plan.forwards.foldlM declareForward []

inductive ForwardingSupervisorError where
  | invalidTarget (host : Text) (port : ℕ)
  | identity (field : String)
  | rejected (operation : String)
  | control

structure SupervisorForward where
  requestedPort : PortNumber
  requireLocalPort : Bool
  targetHost : Text
  targetPort : PortNumber

def SupervisorForward.ofDeclared (forward : DeclaredForward) : SupervisorForward where
  requestedPort := forward.requested.port
  requireLocalPort := forward.requireLocalPort
  targetHost := forward.targetHost
  targetPort := forward.targetPort

/-- The identity that a request names, and that a process was started with. -/
structure SupervisorClaim where
  installation : IdentityToken
  workspace : WorkspaceName
  generation : GenerationId
  (hostBuildId agentBuildId : IdentityToken)
  agentProtocol : ProtocolVersion
deriving DecidableEq

/-- The forwards that a detached process listens for and the credential lease that it serves. -/
structure SupervisorManifest where
  claim : SupervisorClaim
  container : ContainerId
  agentPath : Text
  forwards : List SupervisorForward
  credentialLease : Option SupervisorCredentialLease

def isHostLabel (label : Text) : Bool :=
  !label.isEmpty && label.length ≤ 63 && label.head? != some '-' && label.getLast? != some '-' &&
    label.all fun c => c.isAlphanum || c == '-'

def isTargetHost (host : Text) : Bool :=
  host == "localhost" ||
    (byteLength host ≤ 253 && !host.isEmpty && (IpAddr.parse host).isNone &&
      (host.splitOn '.').all isHostLabel)

def validateTarget (forward : SupervisorForward) : Except ForwardingSupervisorError Unit :=
  require (isTargetHost forward.targetHost)
    (.invalidTarget forward.targetHost forward.targetPort.value)

/-- A manifest without a lease. The paths of the runtime directory are the workspace's own. -/
def SupervisorManifest.new (claim : SupervisorClaim) (container : ContainerId) (agentPath : Text)
    (forwards : List SupervisorForward) : Except ForwardingSupervisorError SupervisorManifest := do
  forwards.forM validateTarget
  require (agentPath.head? == some '/' && !agentPath.contains '\x00') (.identity "agent path")
  return ⟨claim,container,agentPath,forwards,none⟩

def SupervisorManifest.withCredentialLease (manifest : SupervisorManifest)
    (lease : SupervisorCredentialLease) : SupervisorManifest :=
  { manifest with credentialLease := some lease }

/-- What the state file of a supervisor holds. A start puts its manifest there, which is no
state, and so is a damaged file. -/
inductive StateFile where
  | manifest
  | state (claim : SupervisorClaim)

/-- The runtime directory of a workspace. Without a process it holds what a process that
crashed has left. The state file of a process is readable unless a later start has put its
manifest there. -/
inductive SupervisorRuntime where
  | absent (stateFile : Option StateFile) (socket : Bool)
  | live (manifest : SupervisorManifest) (readable : Bool)

namespace SupervisorRuntime

def idle : SupervisorRuntime := .absent none false

def process : SupervisorRuntime → Option SupervisorManifest
  | .live manifest _ => some manifest
  | .absent _ _ => none

def loadSupervisorState : SupervisorRuntime → Option SupervisorClaim
  | .absent (some (.state claim)) _ => some claim
  | .live manifest true => some manifest.claim
  | _ => none

def stopSupervisor (claim : SupervisorClaim) :
    Operation SupervisorRuntime ForwardingSupervisorError Unit := fun runtime =>
  match runtime with
  | .live manifest _ =>
    if manifest.claim = claim then (.ok (), idle) else (.error (.rejected "down"), runtime)
  | .absent _ _ => (.error .control, runtime)

/-- Start a process and wait for its status. A process that finds the lifetime lock taken or
a socket in its place ends at once; by then its manifest has replaced the state file. -/
def startDetachedSupervisor (manifest : SupervisorManifest) :
    Operation SupervisorRuntime ForwardingSupervisorError Unit := fun runtime =>
  match runtime with
  | .absent _ false => (.ok (), .live manifest true)
  | .absent _ true => (.error .control, .absent (some .manifest) true)
  | .live other _ => (.error (.rejected "status"), .live other false)

def incomplete : SupervisorRuntime → Bool
  | .absent stateFile socket => stateFile.isNone || !socket
  | .live _ _ => false

/-- `ScopedForwardingSupervisor::stop` for a generation with this identity. The runtime
directory may fail its inspection. -/
def stop (inspected : Bool) (reply : Reply) (claim : SupervisorClaim) :
    Operation SupervisorRuntime ForwardingSupervisorError ForwardingStopOutcome := fun runtime =>
  if !inspected then (.ok .degraded, runtime)
  else if runtime.incomplete then (.ok .missing, runtime)
  else if runtime.loadSupervisorState = some claim then
    let stopped := reply.deliver .control (stopSupervisor claim) runtime
    (stopped.1.map fun _ => .stopped, stopped.2)
  else (.ok .degraded, runtime)

variable {claim : SupervisorClaim} {manifest : SupervisorManifest} {runtime next : SupervisorRuntime}

/-- A start succeeds where neither a process nor a socket is in its way. -/
theorem startDetachedSupervisor_eq_ok {u : Unit} :
    startDetachedSupervisor manifest runtime = (.ok u, next) ↔
      (∃ stateFile, runtime = .absent stateFile false) ∧ next = .live manifest true := by
  cases runtime with
  | absent stateFile socket => cases socket <;> simp [startDetachedSupervisor,eq_comm]
  | live b readable => simp [startDetachedSupervisor]

end SupervisorRuntime
end Cdenv.ForwardingSupervisor
