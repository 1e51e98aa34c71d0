import Cdenv.ForwardingSupervisor
import Cdenv.RuntimeVerification
import Cdenv.WorkspaceRebuild

/-!
# The supervisor of an image container

A candidate that is provisioned gets a supervisor for its forwards: the one that serves an
unchanged plan is kept, any other is replaced.
-/
namespace Cdenv.ImageRebuild
open TextScan Fallible Identity Inspection RuntimePlanning PortPlanning RuntimeVerification
open WorkspaceRecord StepLog ForwardingSupervisor WorkspaceRebuild
open CredentialStore (SupervisorCredentialLease)

/-- Where the outside is asked, in the order of the source. -/
inductive Site where
  | forwardingIdentity | replaceSupervisor | supervisorEndpoint | startSupervisor
  | restartSupervisor

inductive WorkflowError where
  | call (site : Site)
  | forwards (source : ForwardingPlanError)
  | supervisor (source : ForwardingSupervisorError)
  | message (text : Text)

structure PreparedImage where
  image : ImageId
  architecture : ContainerArchitecture
  generated : Bool

structure AgentProvisioningFacts where
  agentPath : Text
  buildId : IdentityToken
  protocolVersion : ProtocolVersion

structure EnvironmentFacts where
  container : ContainerId
  image : ImageId
  architecture : ContainerArchitecture
  generation : GenerationId

/-- What the outside replies, and what it hands over where it succeeds. -/
structure Outside where
  answers : Site → Reply
  provisioned : AgentProvisioningFacts
  lease : Option SupervisorCredentialLease
  listeners : List ForwardingEndpoint

section outside
variable {σ α : Type} (outside : Outside)

def Outside.perform (site : Site) (operation : Operation σ WorkflowError α) :
    Steps σ Empty WorkflowError α :=
  Steps.call ((outside.answers site).deliver (.call site) operation) id

def Outside.ask (site : Site) : Steps σ Empty WorkflowError Unit :=
  outside.perform site fun s => (.ok (), s)

def checked {ε : Type} (result : Except ε α) (failure : ε → WorkflowError) :
    Steps σ Empty WorkflowError α :=
  Steps.call (fun s => (result, s)) failure

end outside

structure ProductionImageRebuild where
  installation : IdentityToken
  workspace : WorkspaceName
  (profile hostBuildId : IdentityToken)

section rebuild
variable (production : ProductionImageRebuild) (outside : Outside)

namespace ProductionImageRebuild

def claim (generation : GenerationId) (agentBuildId : IdentityToken) (protocol : ProtocolVersion) :
    SupervisorClaim :=
  ⟨production.installation,production.workspace,generation,production.hostBuildId,agentBuildId,
    protocol⟩

def activeClaim (active : ActiveGeneration) : SupervisorClaim :=
  production.claim active.generation active.provisioned.agentBuildId
    active.provisioned.protocolVersion

def activeForwarding (desired : List DeclaredForward) : Except WorkflowError ActiveForwarding := do
  require (outside.listeners.length == desired.length)
    (.message "forwarding supervisor returned an incomplete listener set")
  return ⟨some production.hostBuildId,desired,(desired.zip outside.listeners).map fun pair =>
    ⟨pair.1.requested,some pair.2⟩⟩

def startForwardingSupervisor (site : Site) (facts : EnvironmentFacts)
    (requested : List DeclaredForward) : Steps SupervisorRuntime Empty WorkflowError Unit := do
  outside.ask .supervisorEndpoint
  let manifest ← checked (SupervisorManifest.new
    (production.claim facts.generation outside.provisioned.buildId
      outside.provisioned.protocolVersion)
    facts.container outside.provisioned.agentPath (requested.map .ofDeclared)) .supervisor
  let manifest := outside.lease.elim manifest manifest.withCredentialLease
  Steps.call ((outside.answers site).deliver .control
    (SupervisorRuntime.startDetachedSupervisor manifest)) .supervisor

/-- An unchanged plan without a lease keeps the supervisor that serves it. -/
def keepsSupervisor (facts : EnvironmentFacts) (desired : List DeclaredForward)
    (previous : Option ActiveForwarding) (runtime : SupervisorRuntime) : Bool :=
  outside.lease.isNone && (previous.any fun previous => previous.requested == desired) &&
    runtime.loadSupervisorState.isSome &&
    runtime.process.any fun manifest => manifest.credentialLease.isNone &&
      manifest.claim == production.claim facts.generation outside.provisioned.buildId
        outside.provisioned.protocolVersion

/-- Stops the recorded supervisor and starts one if anything is wanted. -/
def replaceSupervisor (facts : EnvironmentFacts) (desired : List DeclaredForward)
    (previous : Option ActiveForwarding) :
    Steps SupervisorRuntime Empty WorkflowError ActiveForwarding := do
  let loaded ← Steps.query fun runtime => (runtime.loadSupervisorState, runtime)
  if loaded.isSome then
    Steps.call ((outside.answers .replaceSupervisor).deliver .control
      (SupervisorRuntime.stopSupervisor (production.claim facts.generation
        outside.provisioned.buildId outside.provisioned.protocolVersion))) .supervisor
  if desired.isEmpty && outside.lease.isNone then return ⟨none,[],[]⟩
  (production.startForwardingSupervisor outside .startSupervisor facts desired).handle
    fun primary => do
      match previous with
      | some previous =>
        if !previous.requested.isEmpty then
          let _ ← (production.startForwardingSupervisor outside .restartSupervisor facts
            previous.requested).collect
      | none => pure ()
      Steps.fail primary
  checked (production.activeForwarding outside desired) id

def reconcileForwarding (facts : EnvironmentFacts) (ports : PortPlan)
    (previous : Option ActiveForwarding) :
    Steps SupervisorRuntime Empty WorkflowError ActiveForwarding := do
  let desired ← checked (desiredForwards ports) .forwards
  outside.ask .forwardingIdentity
  let keeps ← Steps.query fun runtime =>
    (production.keepsSupervisor outside facts desired previous runtime, runtime)
  if keeps then checked (production.activeForwarding outside desired) id
  else production.replaceSupervisor outside facts desired previous

end ProductionImageRebuild

end rebuild

end Cdenv.ImageRebuild
