import Cdenv.BrokerProtocol
import Cdenv.Credentials
import Cdenv.EventRun
import Cdenv.Inspection
import Cdenv.StampedLog

/-!
# The live credential authority of a supervisor

A supervisor starts with the grants of its lease and replaces them on every accepted
reconcile request. The lock around the policy cannot be poisoned, as its only writer does not
panic.
-/
namespace Cdenv.CredentialBackend
open TextScan Fallible Identity Inspection BrokerProtocol Credentials

structure CredentialUserIdentity where
  (uid gid : UInt32)
deriving DecidableEq

structure CredentialLeaseIdentity where
  installation : IdentityToken
  workspace : WorkspaceName
  workspaceReceipt : Text
  container : ContainerId
  generation : GenerationId
  user : CredentialUserIdentity
  (hostBuild agentBuild : IdentityToken)
  (agentProtocol brokerProtocol grantRevision : ℕ)

/-- Beside the grants stands one epoch per operation: the revision under which that operation's
part of the grants last changed. -/
structure LiveCredentialPolicy where
  revision : ℕ
  grants : CredentialGrants
  (httpsEpoch agentEpoch identityEpoch : ℕ)
  httpsEpoch_le : httpsEpoch ≤ revision
  agentEpoch_le : agentEpoch ≤ revision
  identityEpoch_le : identityEpoch ≤ revision

/-- A part of the grants that changed moves its epoch to the revision. -/
def nextEpoch {A : Type} [DecidableEq A] (old new : A) (revision epoch : ℕ) : ℕ :=
  if old ≠ new then revision else epoch

theorem nextEpoch_le {A : Type} [DecidableEq A] {old new : A} {revision ep : ℕ}
    (h : ep ≤ revision) : nextEpoch old new revision ep ≤ revision := by
  unfold nextEpoch
  split
  · exact le_rfl
  · exact h

namespace LiveCredentialPolicy

def start (revision : ℕ) (grants : CredentialGrants) : LiveCredentialPolicy :=
  ⟨revision,grants,revision,revision,revision,le_rfl,le_rfl,le_rfl⟩

/-- A later revision, or the same grants again. -/
def reconcile (policy : LiveCredentialPolicy) (revision : ℕ) (grants : CredentialGrants) :
    Except String LiveCredentialPolicy :=
  if grants.validate ≠ .ok () then .error "invalid credential grants"
  else if revision = 0 then .error "invalid credential revision"
  else if hle : policy.revision ≤ revision then
    if revision = policy.revision ∧ grants ≠ policy.grants then
      .error "stale or conflicting credential revision"
    else
      .ok
        { revision
          grants
          httpsEpoch := nextEpoch policy.grants.gitHttps grants.gitHttps revision
            policy.httpsEpoch
          agentEpoch := nextEpoch policy.grants.sshAgent grants.sshAgent revision
            policy.agentEpoch
          identityEpoch := nextEpoch (policy.grants.enabled .gitIdentity)
            (grants.enabled .gitIdentity) revision policy.identityEpoch
          httpsEpoch_le := nextEpoch_le (policy.httpsEpoch_le.trans hle)
          agentEpoch_le := nextEpoch_le (policy.agentEpoch_le.trans hle)
          identityEpoch_le := nextEpoch_le (policy.identityEpoch_le.trans hle) }
  else .error "stale or conflicting credential revision"

/-- What the operation needs is granted; the lease itself is compared in `isAuthorized`. -/
def grantsOperation (policy : LiveCredentialPolicy) : BrokerFrameKind → Bool
  | .credentialLookup => policy.grants.enabled .gitHttps
  | .agentOpen => policy.grants.enabled .sshAgent
  | .identityRequest => policy.grants.enabled .gitIdentity
  | _ => false

/-- The epoch of an operation; other kinds have none and read as the largest number. -/
def authorizationEpoch (policy : LiveCredentialPolicy) : BrokerFrameKind → ℕ
  | .credentialLookup => policy.httpsEpoch
  | .agentOpen => policy.agentEpoch
  | .identityRequest => policy.identityEpoch
  | _ => 2^64 - 1

/-- Everything an accepted reconcile establishes. -/
structure Reconciled (policy : LiveCredentialPolicy) (revision : ℕ) (grants : CredentialGrants)
    (next : LiveCredentialPolicy) : Prop where
  valid : grants.validate = .ok ()
  positive : revision ≠ 0
  le : policy.revision ≤ revision
  conflictFree : revision = policy.revision → grants = policy.grants
  revision_eq : next.revision = revision
  grants_eq : next.grants = grants
  httpsEpoch_eq : next.httpsEpoch =
    nextEpoch policy.grants.gitHttps grants.gitHttps revision policy.httpsEpoch
  agentEpoch_eq : next.agentEpoch =
    nextEpoch policy.grants.sshAgent grants.sshAgent revision policy.agentEpoch

variable {next policy : LiveCredentialPolicy} {revision : ℕ} {gs : CredentialGrants}

theorem reconciled_of_eq_ok (h : policy.reconcile revision gs = .ok next) :
    Reconciled policy revision gs next := by
  unfold reconcile at h
  split_ifs at h with hv hz hle hc
  cases h
  refine ⟨not_not.mp hv,hz,hle,?_,rfl,rfl,rfl,rfl⟩
  intro heq
  by_contra hne
  exact hc ⟨heq,hne⟩

theorem exists_reconcile_eq_ok (hv : gs.validate = .ok ()) (hp : revision ≠ 0)
    (hle : policy.revision ≤ revision)
    (hc : revision = policy.revision → gs = policy.grants) :
    ∃ next, policy.reconcile revision gs = .ok next := by
  have hf : ¬(revision = policy.revision ∧ gs ≠ policy.grants) := fun h => h.2 (hc h.1)
  unfold reconcile
  rw [if_neg (not_not.mpr hv),if_neg hp,dif_pos hle,if_neg hf]
  exact ⟨_,rfl⟩

/-- An epoch moves exactly with a change of its part of the grants, and only forward:
a change under the revision already in force is refused as conflicting. -/
theorem Reconciled.follows {A : Type} [DecidableEq A] (h : Reconciled policy revision gs next)
    (pt : CredentialGrants → A) (ep : LiveCredentialPolicy → ℕ)
    (hle : ep policy ≤ policy.revision)
    (he : ep next = nextEpoch (pt policy.grants) (pt gs) revision (ep policy)) :
    StampedLog.Follows (fun p => pt p.grants) ep policy next := by
  unfold StampedLog.Follows
  unfold nextEpoch at he
  simp only [he,h.grants_eq]
  by_cases hp : pt policy.grants = pt gs
  · simp [hp]
  · have hlt : policy.revision < revision := by
      apply lt_of_le_of_ne h.le
      intro heq
      exact hp (by rw [h.conflictFree heq.symm])
    rw [if_pos hp]
    constructor
    · omega
    · intro heq
      omega

theorem reconcile_follows_https (h : policy.reconcile revision gs = .ok next) :
    StampedLog.Follows (fun p => p.grants.gitHttps) LiveCredentialPolicy.httpsEpoch policy next :=
  let r := reconciled_of_eq_ok h
  r.follows (·.gitHttps) _ policy.httpsEpoch_le r.httpsEpoch_eq

end LiveCredentialPolicy

inductive HostSshAgentHealth where
  | absent | unreachable
deriving DecidableEq

structure SelectedHostSshAgent where
  path : Text
deriving DecidableEq

/-- The value of `SSH_AUTH_SOCK` is read only for automatic selection. A value that is
not Unicode is no value. -/
def resolveForMutation (selector : SshAgentSelector) (sshAuthSock : Option Text) :
    Except HostSshAgentHealth SelectedHostSshAgent :=
  match selector.explicitPath with
  | some path => .ok ⟨path⟩
  | none =>
    match sshAuthSock with
    | none => .error .absent
    | some value =>
      if value.isEmpty then .error .absent
      else
        match SshAgentSelector.fromStr value with
        | .error _ => .error .absent
        | .ok parsed =>
          match parsed.explicitPath with
          | some path => .ok ⟨path⟩
          | none => .error .absent

/-- The SSH agent is resolved when the supervisor starts and kept. -/
structure LiveCredentialBackend where
  lease : CredentialLeaseIdentity
  policy : LiveCredentialPolicy
  sshAgent : Option SelectedHostSshAgent

namespace LiveCredentialBackend

def new (lease : CredentialLeaseIdentity) (grants : CredentialGrants)
    (sshAuthSock : Option Text) : LiveCredentialBackend :=
  { lease
    policy := .start lease.grantRevision grants
    sshAgent := grants.sshAgent.bind fun selector =>
      (resolveForMutation selector sshAuthSock).toOption }

def reconcile (backend : LiveCredentialBackend) (revision : ℕ) (grants : CredentialGrants) :
    Except String LiveCredentialBackend := do
  let policy ← backend.policy.reconcile revision grants
  return { backend with policy }

/-- All of the lease but its revision. -/
def exactLease (backend : LiveCredentialBackend) (identity : CredentialLeaseIdentity) : Bool :=
  identity.installation == backend.lease.installation &&
    identity.workspace == backend.lease.workspace &&
    identity.workspaceReceipt == backend.lease.workspaceReceipt &&
    identity.container == backend.lease.container &&
    identity.generation == backend.lease.generation &&
    identity.user == backend.lease.user &&
    identity.hostBuild == backend.lease.hostBuild &&
    identity.agentBuild == backend.lease.agentBuild &&
    identity.agentProtocol == backend.lease.agentProtocol &&
    identity.brokerProtocol == backend.lease.brokerProtocol

def isAuthorized (backend : LiveCredentialBackend) (identity : CredentialLeaseIdentity)
    (operation : BrokerFrameKind) : Bool :=
  backend.exactLease identity && backend.policy.grantsOperation operation

/-- The connection goes to the endpoint resolved at the start, if the host accepts one
there: its socket has the right type and owner and is not replaced meanwhile. -/
def connectAgent (backend : LiveCredentialBackend) (accepts : Text → Bool) :
    Option SelectedHostSshAgent := do
  let agent ← backend.sshAgent
  if accepts agent.path then some agent else none

/-- One reconcile request; refused ones leave the backend as it is and are no event. -/
def accept (backend : LiveCredentialBackend) (request : ℕ × CredentialGrants) :
    Option LiveCredentialBackend :=
  (backend.reconcile request.1 request.2).toOption

/-- The grants in force after the accepted requests. -/
def latestGrants (grants : CredentialGrants) : List (ℕ × CredentialGrants) → CredentialGrants
  | [] => grants
  | request::rest => latestGrants request.2 rest

/-- Whatever the host accepts, a connection under a granted selector goes to the agent
which that selector resolves to. -/
def ReachesSelected (backend : LiveCredentialBackend) (sshAuthSock : Option Text) : Prop :=
  ∀ accepts selector agent, backend.policy.grants.sshAgent = some selector →
    backend.connectAgent accepts = some agent → resolveForMutation selector sshAuthSock = .ok agent

variable {backend : LiveCredentialBackend}
variable {next : LiveCredentialBackend} {gs : CredentialGrants}

theorem policy_of_reconcile {revision : ℕ} (h : backend.reconcile revision gs = .ok next) :
    backend.policy.reconcile revision gs = .ok next.policy := by
  simp only [reconcile,bind_eq_ok,pure_eq_ok] at h
  obtain ⟨policy,hp,rfl⟩ := h
  exact hp

theorem accept_eq_some {req : ℕ × CredentialGrants} (h : backend.accept req = some next) :
    next.sshAgent = backend.sshAgent ∧ next.policy.grants = req.2 := by
  unfold accept reconcile at h
  cases hp : backend.policy.reconcile req.1 req.2 with
  | error e =>
    rw [hp] at h
    cases h
  | ok policy =>
    rw [hp] at h
    cases h
    exact ⟨rfl,(LiveCredentialPolicy.reconciled_of_eq_ok hp).grants_eq⟩

/-- The agent stays the one of the start; the grants follow the requests. -/
theorem run_accept {fin : LiveCredentialBackend} {requests : List (ℕ × CredentialGrants)}
    (h : EventRun.run accept backend requests = some fin) :
    fin.sshAgent = backend.sshAgent ∧
      fin.policy.grants = latestGrants backend.policy.grants requests := by
  induction requests generalizing backend with
  | nil =>
    cases h
    exact ⟨rfl,rfl⟩
  | cons req xs ih =>
    obtain ⟨next,hs,hr⟩ := EventRun.run_cons.mp h
    obtain ⟨ha,hg⟩ := accept_eq_some hs
    obtain ⟨hf,hl⟩ := ih hr
    rw [ha] at hf
    rw [hg] at hl
    exact ⟨hf,hl⟩

variable {agent : SelectedHostSshAgent}

theorem connectAgent_eq_some {accepts : Text → Bool} : backend.connectAgent accepts = some agent ↔
      backend.sshAgent = some agent ∧ accepts agent.path = true := by
  unfold connectAgent
  cases backend.sshAgent with
  | none => simp
  | some res =>
    simp only [Option.bind_eq_bind,Option.bind_some,Option.some.injEq]
    split_ifs with ha
    · constructor
      · intro h
        cases h
        exact ⟨rfl,ha⟩
      · intro h
        rw [h.1]
    · constructor
      · exact nofun
      · rintro ⟨rfl,h⟩
        exact (ha h).elim

theorem new_sshAgent_eq_some {ls : CredentialLeaseIdentity} {sshAuthSock : Option Text} :
    (new ls gs sshAuthSock).sshAgent = some agent ↔ ∃ sel,
      gs.sshAgent = some sel ∧ resolveForMutation sel sshAuthSock = .ok agent := by
  simp only [new,Option.bind_eq_some_iff]
  apply exists_congr
  intro sel
  apply and_congr_right
  intro _
  cases resolveForMutation sel sshAuthSock <;> simp [Except.toOption]

/-- After any accepted requests, connections follow the selector in force exactly when the
selector the supervisor started with, if it resolved at all, resolves to the same agent. -/
theorem reachesSelected_iff {lease : CredentialLeaseIdentity} {grants : CredentialGrants}
    {sshAuthSock : Option Text} {requests : List (ℕ × CredentialGrants)}
    {backend : LiveCredentialBackend}
    (h : EventRun.run accept (new lease grants sshAuthSock) requests = some backend) :
    backend.ReachesSelected sshAuthSock ↔ ∀ first agent current, grants.sshAgent = some first →
        resolveForMutation first sshAuthSock = .ok agent →
        (latestGrants grants requests).sshAgent = some current →
        resolveForMutation current sshAuthSock = .ok agent := by
  obtain ⟨ha,hg⟩ := run_accept h
  constructor
  · intro hre first agent current hf hr hcu
    have hs := ha.trans (new_sshAgent_eq_some.mpr ⟨first,hf,hr⟩)
    have hc : backend.connectAgent (fun _ => true) = some agent := connectAgent_eq_some.mpr ⟨hs,rfl⟩
    exact hre (fun _ => true) current agent (by rw [hg]; exact hcu) hc
  · intro hco accepts sel agent hse hc
    have hs := (connectAgent_eq_some.mp hc).1
    rw [ha] at hs
    obtain ⟨first,hf,hr⟩ := new_sshAgent_eq_some.mp hs
    rw [hg] at hse
    exact hco first agent sel hf hr hse

end LiveCredentialBackend

def sampleLease : CredentialLeaseIdentity :=
  { installation := ⟨"install-1",by decide +kernel⟩
    workspace := ⟨"project",by decide +kernel⟩
    workspaceReceipt := List.replicate 64 '0'
    container := .sample
    generation := .first
    user := ⟨1000,1000⟩
    hostBuild := ⟨"build-1",by decide +kernel⟩
    agentBuild := ⟨"build-1",by decide +kernel⟩
    agentProtocol := 1
    brokerProtocol := 1
    grantRevision := 1 }

def socketGrants (path : String) (h : isSelector path.toList = true) : CredentialGrants :=
  ⟨none,some ⟨path.toList,h⟩,false⟩

def sampleGrants : CredentialGrants := socketGrants "/run/a.sock" (by decide +kernel)

namespace LiveCredentialBackend

/-- Granting the same socket again under a new revision keeps the connection right. -/
theorem reachesSelected_same_socket : ∃ backend, EventRun.run accept
        (new sampleLease sampleGrants none)
        [(2, sampleGrants)] = some backend ∧
      backend.ReachesSelected none := by
  obtain ⟨backend,h⟩ : ∃ backend, EventRun.run accept
      (new sampleLease sampleGrants none)
      [(2, sampleGrants)] = some backend := ⟨_,rfl⟩
  refine ⟨backend,h,(reachesSelected_iff h).mpr ?_⟩
  intro fst agent cur hf hr hc
  cases hf
  cases hc
  exact hr

/-- A replaced selector is not followed: the connection still goes to the first socket. -/
theorem connectAgent_replaced_socket : ∃ backend, EventRun.run accept
        (new sampleLease sampleGrants none)
        [(2, socketGrants "/run/b.sock" (by decide +kernel))] = some backend ∧
      backend.connectAgent (fun _ => true) = some ⟨"/run/a.sock"⟩ ∧
      ¬backend.ReachesSelected none := by
  refine ⟨_,rfl,rfl,?_⟩
  intro hr
  have h := hr (fun _ => true) ⟨"/run/b.sock",by decide +kernel⟩ ⟨"/run/a.sock"⟩ rfl rfl
  revert h
  decide +kernel

end LiveCredentialBackend
end Cdenv.CredentialBackend
