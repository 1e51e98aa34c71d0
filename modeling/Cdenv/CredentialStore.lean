import Cdenv.FileTree
import Cdenv.CredentialBackend

/-!
# Stored consent

One record for each workspace name holds the grants a user has consented to, under a
revision that counts its writes. The model is that of one name. Commands and the binding at
the end of a creation run under locks, so they are single events; each of their writes may
fail before or after it has replaced its file, and a crash leaves what such a failure leaves.
Reads of private files either succeed or end the operation without a write, and then nothing
happens at all. SHA-256 and the origin of a repository URL are parameters.
-/
namespace Cdenv.CredentialStore
open TextScan Fallible Identity Credentials CredentialBackend

inductive CredentialCommandError where
  | policy (error : CredentialPolicyError)
  | storage | invalidRecord | scope | workspace | binding | explicitNameRequired | revision

def credentialPermissionSchema : ℕ := 1

structure BindingReceipt where
  schemaVersion : ℕ
  installation : IdentityToken
  workspace : WorkspaceName
  (createdAt sourceDigest : Text)
  (directoryDevice directoryInode : ℕ)
  nonce : Text
deriving DecidableEq

/-- The directory that a receipt names. -/
def BindingReceipt.directory (receipt : BindingReceipt) : ℕ × ℕ :=
  (receipt.directoryDevice, receipt.directoryInode)

/-- A record is staged, for a workspace that is still to be created under its name, or bound to
one workspace through a receipt which lies both in the record and in the workspace's directory. -/
inductive PermissionBinding where
  | staged
  | bound (receipt : BindingReceipt)
deriving DecidableEq

structure PermissionRecord where
  schemaVersion : ℕ
  installation : IdentityToken
  (installationRootDevice installationRootInode : ℕ)
  workspace : WorkspaceName
  revision : ℕ
  binding : PermissionBinding
  grants : CredentialGrants
deriving DecidableEq

structure WorkspaceState where
  installation : IdentityToken
  name : WorkspaceName
  (createdAt repositorySource : Text)

/-- A workspace's directory with its state and its receipt file. `explicitName` says
whether the creating command named it. -/
structure Workspace where
  (device inode : ℕ)
  state : WorkspaceState
  receipt : Option BindingReceipt
  explicitName : Bool
  incarnation : ℕ
  returned : Bool := false

def Workspace.directory (workspace : Workspace) : ℕ × ℕ := (workspace.device, workspace.inode)

structure Installation where
  id : IdentityToken
  (rootDevice rootInode : ℕ)

structure Store where
  record : Option PermissionRecord
  workspace : Option Workspace

def isNonce (nonce : Text) : Bool :=
  nonce.length == 64 && nonce.all fun c => c.isDigit || ('a' ≤ c && c ≤ 'f')

/-- The hexadecimal text of 32 random bytes. -/
structure Nonce where
  value : Text
  valid : isNonce value = true

inductive CredentialEnable where
  | gitHttps (origins : List HttpsOrigin)
  | sshAgent (socket : Option SshAgentSelector)
  | gitIdentity

inductive CredentialsCommand where
  | enable (capability : CredentialEnable)
  | allow (origins : List HttpsOrigin)
  | deny (origins : List HttpsOrigin)
  | disable (capabilities : List CredentialCapability)

def CredentialsCommand.isEnable : CredentialsCommand → Bool
  | .enable _ => true
  | _ => false

structure SupervisorCredentialLease where
  workspaceReceipt : Text
  user : CredentialUserIdentity
  grantRevision : ℕ
  grants : CredentialGrants
  runtimeDirectory : Text

section functions
variable (root : Installation) (name : WorkspaceName) (sha256Hex : Text → Text)
variable (fromRepositorySource : Text → Option HttpsOrigin)

def BindingReceipt.matches (receipt : BindingReceipt) (workspace : Workspace) : Bool :=
  receipt.schemaVersion == credentialPermissionSchema &&
    receipt.installation == workspace.state.installation &&
    receipt.workspace == workspace.state.name &&
    receipt.createdAt == workspace.state.createdAt &&
    receipt.sourceDigest == sha256Hex workspace.state.repositorySource &&
    receipt.directoryDevice == workspace.device &&
    receipt.directoryInode == workspace.inode &&
    isNonce receipt.nonce

/-- The record's receipt is the workspace's own and lies in its directory. -/
def boundMatches (record : PermissionRecord) (workspace : Workspace) : Bool :=
  match record.binding with
  | .staged => false
  | .bound receipt =>
    receipt.matches sha256Hex workspace && workspace.receipt == some receipt

def validateScope (record : PermissionRecord) : Except CredentialCommandError Unit :=
  require (record.installation == root.id && record.workspace == name) .scope

/-- A record of another schema, without a revision, with too large an allowlist or of
another root directory is refused. -/
def loadRecord (store : Store) : Except CredentialCommandError (Option PermissionRecord) :=
  match store.record with
  | none => .ok none
  | some record => do
    require (record.schemaVersion == credentialPermissionSchema && record.revision != 0)
      .invalidRecord
    record.grants.validate.mapError .policy
    require (record.installationRootDevice == root.rootDevice &&
      record.installationRootInode == root.rootInode) .scope
    return some record

def loadExistingWorkspace (store : Store) : Except CredentialCommandError (Option Workspace) :=
  match store.workspace with
  | none => .ok none
  | some workspace => do
    require (workspace.state.name == name && workspace.state.installation == root.id) .workspace
    return some workspace

/-- A mutation without a change writes nothing. -/
def persistChange (store : Store) (record : PermissionRecord)
    (previous : Option PermissionRecord) (failure : Option AtomicWriteStage) :
    Store × Except CredentialCommandError Unit :=
  if previous = some record then (store, .ok ())
  else if record.revision = 2^64 - 1 then (store, .error .revision)
  else
    let write := atomicWrite store.record (some { record with revision := record.revision+1 })
      failure
    ({ store with record := write.1 }, write.2.mapError fun _ => .storage)

/-- The receipt in the workspace's directory, or a new one. -/
def ensureReceipt (store : Store) (workspace : Workspace) (nonce : Nonce)
    (failure : Option AtomicWriteStage) : Store × Except CredentialCommandError BindingReceipt :=
  match workspace.receipt with
  | some receipt =>
    (store, if receipt.matches sha256Hex workspace then .ok receipt else .error .binding)
  | none =>
    let receipt : BindingReceipt :=
      { schemaVersion := credentialPermissionSchema
        installation := workspace.state.installation
        workspace := workspace.state.name
        createdAt := workspace.state.createdAt
        sourceDigest := sha256Hex workspace.state.repositorySource
        directoryDevice := workspace.device
        directoryInode := workspace.inode
        nonce := nonce.value }
    let write := atomicWrite none (some receipt) failure
    ({ store with workspace := some { workspace with receipt := write.1 } },
      match write.2 with
      | .ok () => .ok receipt
      | .error _ => .error .storage)

def enable (grants : CredentialGrants) (capability : CredentialEnable)
    (workspace : Option Workspace) : Except CredentialPolicyError CredentialGrants :=
  match capability with
  | .gitHttps origins =>
    if !origins.isEmpty || grants.enabled .gitHttps then (grants.enableHttps origins).committed
    else do
      let origin ← orFail (workspace.bind fun live =>
        fromRepositorySource live.state.repositorySource) .originsRequired
      (grants.enableHttps [origin]).committed
  | .sshAgent socket =>
    .ok (grants.enableSshAgent ((socket.or grants.sshAgent).getD .automatic))
  | .gitIdentity => .ok grants.enableIdentity

def disableAll (grants : CredentialGrants) (capabilities : List CredentialCapability) :
    CredentialGrants :=
  if capabilities.isEmpty then .none else capabilities.foldl CredentialGrants.disable grants

def changeGrants (grants : CredentialGrants) (workspace : Option Workspace) :
    CredentialsCommand → Except CredentialPolicyError CredentialGrants
  | .enable capability => enable fromRepositorySource grants capability workspace
  | .allow origins => (grants.adjustOrigins origins true).committed
  | .deny origins => (grants.adjustOrigins origins false).committed
  | .disable capabilities => .ok (disableAll grants capabilities)

/-- First consent needs no binding. Otherwise a staged record may change while there is no
workspace, or in a workspace whose creation has left its receipt, and a bound one only in
its workspace. -/
def validateMutationBinding (record : PermissionRecord) (workspace : Option Workspace)
    (command : CredentialsCommand) : Except CredentialCommandError Unit :=
  if record.grants.isEmpty && command.isEnable then .ok ()
  else
    match record.binding, workspace with
    | .staged, none => .ok ()
    | .staged, some live =>
      require (live.receipt.any fun receipt => receipt.matches sha256Hex live)
        .explicitNameRequired
    | .bound _, some live => require (boundMatches sha256Hex record live) .binding
    | .bound _, none => .error .binding

def newRecord : PermissionRecord :=
  { schemaVersion := credentialPermissionSchema
    installation := root.id
    installationRootDevice := root.rootDevice
    installationRootInode := root.rootInode
    workspace := name
    revision := 0
    binding := .staged
    grants := .none }

def loadScoped (store : Store) : Except CredentialCommandError (Option PermissionRecord) := do
  let previous ← loadRecord root store
  match previous with
  | some record => do
    validateScope root name record
    return previous
  | none => return previous

/-- The workspace and the changed grants of a command other than `disable`. -/
def prepareMutation (store : Store) (record : PermissionRecord) (command : CredentialsCommand) :
    Except CredentialCommandError (Option Workspace × CredentialGrants) := do
  let workspace ← loadExistingWorkspace root name store
  validateMutationBinding sha256Hex record workspace command
  let grants ←
    (changeGrants fromRepositorySource record.grants workspace command).mapError .policy
  return (workspace, grants)

def persistStaged (store : Store) (record : PermissionRecord)
    (previous : Option PermissionRecord) (grants : CredentialGrants)
    (recordFailure : Option AtomicWriteStage) : Store × Except CredentialCommandError Unit :=
  let binding := if previous.any fun old => old.grants.isEmpty then .staged else record.binding
  persistChange store { record with binding, grants } previous recordFailure

/-- The end of a mutation in a live workspace, whose receipt is written first. -/
def persistBound (store : Store) (live : Workspace) (record : PermissionRecord)
    (previous : Option PermissionRecord) (grants : CredentialGrants) (nonce : Nonce)
    (receiptFailure recordFailure : Option AtomicWriteStage) :
    Store × Except CredentialCommandError Unit :=
  let changed := { record with grants }
  if boundMatches sha256Hex changed live then persistChange store changed previous recordFailure
  else
    match ensureReceipt sha256Hex store live nonce receiptFailure with
    | (next, .ok receipt) =>
      persistChange next { changed with binding := .bound receipt } previous recordFailure
    | (next, .error error) => (next, .error error)

/-- `disable` asks for no binding and gives it up with the last grant. -/
def mutateCredentials (store : Store) (command : CredentialsCommand) (nonce : Nonce)
    (receiptFailure recordFailure : Option AtomicWriteStage) :
    Store × Except CredentialCommandError Unit :=
  match loadScoped root name store with
  | .error error => (store, .error error)
  | .ok previous =>
    let record := previous.getD (newRecord root name)
    match command with
    | .disable capabilities =>
      let grants := disableAll record.grants capabilities
      let binding := if grants.isEmpty then .staged else record.binding
      persistChange store { record with binding, grants } previous recordFailure
    | command =>
      match prepareMutation root name sha256Hex fromRepositorySource store record command with
      | .error error => (store, .error error)
      | .ok (none, grants) => persistStaged store record previous grants recordFailure
      | .ok (some live, grants) =>
        persistBound sha256Hex store live record previous grants nonce receiptFailure
          recordFailure

/-- Run by `create` for the workspace it has made. -/
def bindCreatedWorkspace (store : Store) (live : Workspace) (nonce : Nonce)
    (receiptFailure recordFailure : Option AtomicWriteStage) :
    Store × Except CredentialCommandError Unit :=
  match loadScoped root name store with
  | .error error => (store, .error error)
  | .ok none => (store, .ok ())
  | .ok (some record) =>
    if record.grants.isEmpty then (store, .ok ())
    else if !live.explicitName then (store, .error .explicitNameRequired)
    else
      match record.binding with
      | .bound _ =>
        (store, if boundMatches sha256Hex record live then .ok () else .error .binding)
      | .staged =>
        match ensureReceipt sha256Hex store live nonce receiptFailure with
        | (next, .ok receipt) =>
          persistChange next { record with binding := .bound receipt } (some record)
            recordFailure
        | (next, .error error) => (next, .error error)

def joinPath (directory path : Text) : Text :=
  if directory.getLast? = some '/' then directory++path else directory++ '/'::path

/-- The lease of a supervisor for the live workspace: none without grants, an error unless
the record is bound to this workspace. -/
def credentialSupervisorLease (store : Store) (live : Workspace) (user : CredentialUserIdentity)
    (home : Text) (generation : GenerationId) :
    Except CredentialCommandError (Option SupervisorCredentialLease) := do
  match ← loadScoped root name store with
  | none => return none
  | some record =>
    if record.grants.isEmpty then return none
    else do
      require (boundMatches sha256Hex record live && home.head? == some '/' &&
        home != "/") .binding
      match record.binding with
      | .staged => .error .binding
      | .bound receipt =>
        return some
          { workspaceReceipt := receipt.nonce
            user
            grantRevision := record.revision
            grants := record.grants
            runtimeDirectory := joinPath (joinPath home ".cdenv/credentials")
              (decimal generation.value) }

end functions

/-- The single permissions of grants. -/
inductive Permission where
  | https (origin : HttpsOrigin)
  | sshAgent (selector : SshAgentSelector)
  | gitIdentity
deriving DecidableEq

def Permission.isIn (grants : CredentialGrants) : Permission → Bool
  | .https origin => grants.allows origin
  | .sshAgent selector => grants.sshAgent == some selector
  | .gitIdentity => grants.gitIdentity

/-- A permission a command asked for: in which workspace, if one was live, and how many
workspaces of the name had been created by then. -/
structure Consent where
  permission : Permission
  workspace : Option ℕ
  moment : ℕ

/-- The record and the live workspace of the name, the directories that were moved away from under
it and may be put back, and its supervisors. The logs, the leases, a workspace's number and
whether it was put back are read by no function of the source. -/
structure System where
  store : Store
  parked : List Workspace
  created : ℕ
  history : List PermissionRecord
  consents : List Consent
  leases : List SupervisorCredentialLease
  supervisors : List LiveCredentialPolicy

inductive Event where
  | mutate (command : CredentialsCommand) (nonce : Nonce)
      (receiptFailure recordFailure : Option AtomicWriteStage)
  | create (device inode : ℕ) (createdAt repositorySource : Text) (explicitName : Bool)
  | bind (nonce : Nonce) (receiptFailure recordFailure : Option AtomicWriteStage)
  | remove
  | moveAway
  | moveBack (index : ℕ)
  | lease (user : CredentialUserIdentity) (home : Text) (generation : GenerationId)
  | supervise (lease : ℕ)
  | reconcile (supervisor record : ℕ)

section histories
variable (root : Installation) (name : WorkspaceName) (sha256Hex : Text → Text)
variable (fromRepositorySource : Text → Option HttpsOrigin)

/-- What a command asks for, as its help describes it: the origins it lists, or the
repository's own if it lists none for a first grant; the socket it names, or the one
already selected, or automatic selection. -/
def requests (grants : CredentialGrants) (workspace : Option Workspace) :
    CredentialsCommand → List Permission
  | .enable (.gitHttps []) =>
    if grants.enabled .gitHttps then []
    else
      match workspace.bind fun live => fromRepositorySource live.state.repositorySource with
      | some origin => [.https origin]
      | none => []
  | .enable (.gitHttps origins) => origins.map .https
  | .enable (.sshAgent socket) =>
    match socket, grants.sshAgent with
    | some selector, _ => [.sshAgent selector]
    | none, some selector => [.sshAgent selector]
    | none, none => [.sshAgent .automatic]
  | .enable .gitIdentity => [.gitIdentity]
  | .allow origins => origins.map .https
  | .deny _ => []
  | .disable _ => []

namespace System

def start : System := ⟨⟨none,none⟩,[],0,[],[],[],[]⟩

/-- The consents a command gives in this state. -/
def asks (s : System) (command : CredentialsCommand) : List Consent :=
  (requests fromRepositorySource ((s.store.record.map (·.grants)).getD .none) s.store.workspace
    command).map fun permission =>
      ⟨permission,s.store.workspace.map (·.incarnation),s.created⟩

/-- A store in which a new record has been written, with the consents that led to it. -/
def note (s : System) (store : Store) (consents : List Consent) : System :=
  if store.record = s.store.record then { s with store }
  else
    { s with
      store
      history := s.history++store.record.toList
      consents := s.consents++consents }

/-- A directory that was moved away still exists, so that a new one is another. -/
def step (s : System) (event : Event) : Option System :=
  match event with
  | .mutate command nonce receiptFailure recordFailure =>
    some (s.note (mutateCredentials root name sha256Hex fromRepositorySource s.store command
      nonce receiptFailure recordFailure).1 (s.asks fromRepositorySource command))
  | .create device inode createdAt repositorySource explicitName =>
    if s.store.workspace.isSome || s.parked.any (·.directory == (device, inode)) then none
    else
      let live : Workspace := { device, inode, receipt := none, explicitName
                                state := ⟨root.id,name,createdAt,repositorySource⟩
                                incarnation := s.created }
      some { s with
        store := { s.store with workspace := some live }
        created := s.created+1 }
  | .bind nonce receiptFailure recordFailure =>
    match s.store.workspace with
    | some live =>
      if live.returned then none
      else
        some (s.note (bindCreatedWorkspace root name sha256Hex s.store live nonce receiptFailure
          recordFailure).1 [])
    | none => none
  | .remove => some { s with store := { s.store with workspace := none } }
  | .moveAway =>
    match s.store.workspace with
    | some live => some { s with
        store := { s.store with workspace := none }
        parked := live::s.parked }
    | none => none
  | .moveBack index =>
    match s.store.workspace, s.parked[index]? with
    | none, some away => some { s with
        store := { s.store with workspace := some { away with returned := true } }
        parked := s.parked.eraseIdx index }
    | _, _ => none
  | .lease user home generation =>
    match s.store.workspace with
    | some live =>
      match credentialSupervisorLease root name sha256Hex s.store live user home generation with
      | .ok (some lease) => some { s with leases := s.leases++[lease] }
      | _ => none
    | none => none
  | .supervise index =>
    match s.leases[index]? with
    | some lease => some { s with
        supervisors := s.supervisors++[.start lease.grantRevision lease.grants] }
    | none => none
  | .reconcile supervisor index =>
    match s.supervisors[supervisor]?, s.history[index]? with
    | some policy, some record =>
      match policy.reconcile record.revision record.grants with
      | .ok next => some { s with supervisors := s.supervisors.set supervisor next }
      | .error _ => none
    | _, _ => none

end System
end histories
end Cdenv.CredentialStore
