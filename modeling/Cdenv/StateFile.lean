import Cdenv.WorkspaceRecord

/-!
# The state file of a new workspace

What is written for a workspace before it has an active generation, and how it is read back.
The file is the record that the JSON text encodes; the encoding itself is not modelled.

URLs are printed by a library. A repository source is written only as that library prints
it, so that reading back what was written rests on printing being stable: `PrintsStably`.
-/
namespace Cdenv.StateFile
open TextScan Fallible Identity Inspection WorkspaceRecord

/-- Where the eleventh byte is a `T` it starts a character, so the zone is looked for in the
bytes from there on. -/
def isTimestamp (value : Text) : Bool :=
  let bytes := utf8 value
  let zone := bytes.drop 10
  20 ≤ bytes.length && bytes[4]? == some '-'.toUInt8 && bytes[7]? == some '-'.toUInt8 &&
    bytes[10]? == some 'T'.toUInt8 && !value.any isControl &&
    (value.getLast? == some 'Z' || zone.contains '+'.toUInt8 || zone.contains '-'.toUInt8)

structure StateTimestamp where
  value : Text
  valid : isTimestamp value = true

/-- A relative path without `..` that names something. -/
def isConfigPath (value : Text) : Bool :=
  let components := value.splitOn '/'
  !value.isEmpty && !value.any isControl && value.head? != some '/' &&
    !components.contains ".." &&
    components.any fun c => !c.isEmpty && c != "."

structure DesiredConfigPath where
  value : Text
  valid : isConfigPath value = true

/-- The source without control characters. Where it is a URL, `print` prints it without its
password, its query and fragment and, for HTTP, its user name. -/
def sanitizeSource (print : Text → Option Text) (source : Text) : Text :=
  let source := source.filter fun c => !isControl c
  (print source).getD source

/-- A printed URL is plain text and is printed as it is. -/
def PrintsStably (print : Text → Option Text) : Prop :=
  ∀ source printed, print source = some printed →
    (∀ c ∈ printed, isControl c = false) ∧ print printed = some printed

variable {print : Text → Option Text}

theorem sanitizeSource_of_plain {source : Text} (h : ∀ c ∈ source, isControl c = false) :
    sanitizeSource print source = (print source).getD source := by
  have hs : source.filter (fun c => !isControl c) = source := by
    rw [List.filter_eq_self]
    intro c hc
    simp [h c hc]
  unfold sanitizeSource
  rw [hs]

theorem sanitizeSource_idempotent (hpr : PrintsStably print) (source : Text) :
    sanitizeSource print (sanitizeSource print source) = sanitizeSource print source := by
  have hpl : ∀ c ∈ source.filter fun c => !isControl c, isControl c = false := by
    intro c hc
    simpa using (List.mem_filter.mp hc).2
  cases hp : print (source.filter fun c => !isControl c) with
  | none =>
    have hs : sanitizeSource print source = source.filter fun c => !isControl c := by
      rw [sanitizeSource,hp,Option.getD_none]
    rw [hs,sanitizeSource_of_plain hpl,hp,Option.getD_none]
  | some printed =>
    obtain ⟨hpi,hst⟩ := hpr _ _ hp
    have hs : sanitizeSource print source = printed := by
      rw [sanitizeSource,hp,Option.getD_some]
    rw [hs,sanitizeSource_of_plain hpi,hst,Option.getD_some]

/-- `WorkspaceState` as long as no generation has become active. -/
structure NewWorkspaceState where
  installationId : IdentityToken
  name : WorkspaceName
  repositorySource : Text
  devcontainerProfile : IdentityToken
  desiredDevcontainerConfig : DesiredConfigPath
  desiredFingerprints : PlanFingerprints
  createdAt : StateTimestamp
  operation : OperationState
  lastError : Option SanitizedSummary
  started : operation.startedAt.all isTimestamp = true

namespace NewWorkspaceState

def updateDesired (state : NewWorkspaceState) (profile : IdentityToken)
    (config : DesiredConfigPath) (fingerprints : PlanFingerprints) : NewWorkspaceState :=
  { state with
    devcontainerProfile := profile
    desiredDevcontainerConfig := config
    desiredFingerprints := fingerprints }

def setLastError (state : NewWorkspaceState) (error : Option SanitizedSummary) :
    NewWorkspaceState :=
  { state with lastError := error }

def setIdle (state : NewWorkspaceState) : NewWorkspaceState :=
  { state with
    operation := .idle
    started := rfl }

end NewWorkspaceState

structure RawOperation where
  kind : ForegroundOperation
  (id startedAt : Option Text)

structure RawFingerprints where
  (build create runtime : Text)

/-- The fields of the file as the JSON text has them. -/
structure RawState where
  schemaVersion : ℕ
  (installationId name repositorySource devcontainerProfile desiredDevcontainerConfig : Text)
  desiredFingerprints : RawFingerprints
  createdAt : Text
  operation : RawOperation
  lastError : Option Text

def workspaceStateSchemaVersion : ℕ := 1

/-- The record as it is written. -/
def encode (state : NewWorkspaceState) : RawState where
  schemaVersion := workspaceStateSchemaVersion
  installationId := state.installationId.value
  name := state.name.value
  repositorySource := state.repositorySource
  devcontainerProfile := state.devcontainerProfile.value
  desiredDevcontainerConfig := state.desiredDevcontainerConfig.value
  desiredFingerprints :=
    { build := state.desiredFingerprints.build.value
      create := state.desiredFingerprints.create.value
      runtime := state.desiredFingerprints.runtime.value }
  createdAt := state.createdAt.value
  operation :=
    { kind := state.operation.kind
      id := state.operation.id
      startedAt := state.operation.startedAt }
  lastError := state.lastError.map (·.value)

inductive LoadError where
  | managedPath | missing | corrupt
  | newerSchema (found : ℕ)
  | olderSchema (found : ℕ)

def checked {α β : Type*} (accepts : α → Bool) (make : (v : α) → accepts v = true → β)
    (value : α) : Except LoadError β :=
  if h : accepts value = true then .ok (make value h) else .error .corrupt

theorem checked_eq_ok {α β : Type*} {accepts : α → Bool} {make : (v : α) → accepts v = true → β}
    {val : α} (h : accepts val = true) : checked accepts make val = .ok (make val h) :=
  dif_pos h

def isKeyedDigest (value : Text) : Bool := (stripPrefix "keyed:" value).any isDigest

def decodeFingerprints (raw : RawFingerprints) : Except LoadError PlanFingerprints := do
  let build ← checked isKeyedDigest KeyedDigest.mk raw.build
  let create ← checked isKeyedDigest KeyedDigest.mk raw.create
  let runtime ← checked isKeyedDigest KeyedDigest.mk raw.runtime
  return { build, create, runtime }

def isSummary (value : Text) : Bool := byteLength value ≤ maxSummaryBytes && !value.any isControl

theorem isSummary_iff {v : Text} : isSummary v = true ↔
    byteLength v ≤ maxSummaryBytes ∧ ∀ c ∈ v, isControl c = false := by
  simp [isSummary]

def decodeSummary (value : Option Text) : Except LoadError (Option SanitizedSummary) :=
  match value with
  | none => .ok none
  | some value =>
    checked isSummary (fun v h => some ⟨v,(isSummary_iff.mp h).1,(isSummary_iff.mp h).2⟩) value

abbrev TimedOperation := { o : OperationState // o.startedAt.all isTimestamp = true }

def isTimedOperation (raw : RawOperation) : Bool :=
  isOperation raw.kind raw.id raw.startedAt && raw.startedAt.all isTimestamp

theorem isTimedOperation_iff {raw : RawOperation} : isTimedOperation raw = true ↔
    isOperation raw.kind raw.id raw.startedAt = true ∧ raw.startedAt.all isTimestamp = true :=
  Bool.and_eq_true_iff

def decodeOperation : RawOperation → Except LoadError TimedOperation :=
  checked isTimedOperation fun raw h =>
    ⟨⟨raw.kind,raw.id,raw.startedAt,(isTimedOperation_iff.mp h).1⟩, (isTimedOperation_iff.mp h).2⟩

section
variable (print : Text → Option Text)

def isSanitized (source : Text) : Bool := sanitizeSource print source == source

/-- A file of the current schema; every field is checked. -/
def decodeCurrent (raw : RawState) : Except LoadError NewWorkspaceState := do
  let installationId ← checked isIdentityToken IdentityToken.mk raw.installationId
  let name ← checked isWorkspaceName WorkspaceName.mk raw.name
  let repositorySource ← checked (isSanitized print) (fun s _ => s) raw.repositorySource
  let devcontainerProfile ← checked isIdentityToken IdentityToken.mk raw.devcontainerProfile
  let desiredDevcontainerConfig ←
    checked isConfigPath DesiredConfigPath.mk raw.desiredDevcontainerConfig
  let desiredFingerprints ← decodeFingerprints raw.desiredFingerprints
  let createdAt ← checked isTimestamp StateTimestamp.mk raw.createdAt
  let operation ← decodeOperation raw.operation
  let lastError ← decodeSummary raw.lastError
  return {
    installationId, name, repositorySource, devcontainerProfile, desiredDevcontainerConfig,
    desiredFingerprints, createdAt, lastError
    operation := operation.1
    started := operation.2 }

def decodeWorkspaceState (raw : RawState) : Except LoadError NewWorkspaceState :=
  if workspaceStateSchemaVersion < raw.schemaVersion then .error (.newerSchema raw.schemaVersion)
  else if raw.schemaVersion = workspaceStateSchemaVersion then decodeCurrent print raw
  else .error (.olderSchema raw.schemaVersion)

end

theorem decodeFingerprints_encode (s : NewWorkspaceState) :
    decodeFingerprints (encode s).desiredFingerprints = .ok s.desiredFingerprints := by
  have hd (digest : KeyedDigest) :
      checked isKeyedDigest KeyedDigest.mk digest.value = .ok digest := by
    have hv : isKeyedDigest digest.value = true := digest.valid
    exact checked_eq_ok hv
  unfold decodeFingerprints encode
  rw [hd,hd,hd]
  rfl

theorem decodeSummary_encode (error : Option SanitizedSummary) :
    decodeSummary (error.map (·.value)) = .ok error := by
  cases error with
  | none => rfl
  | some summary =>
    have hv := isSummary_iff.mpr ⟨summary.bounded,summary.plain⟩
    rw [Option.map_some,decodeSummary,checked_eq_ok hv]

theorem decodeWorkspaceState_encode {state : NewWorkspaceState}
    (hs : sanitizeSource print state.repositorySource = state.repositorySource) :
    decodeWorkspaceState print (encode state) = .ok state := by
  have hi : checked isIdentityToken IdentityToken.mk (encode state).installationId =
      .ok state.installationId := checked_eq_ok state.installationId.valid
  have hn : checked isWorkspaceName WorkspaceName.mk (encode state).name = .ok state.name :=
    checked_eq_ok state.name.valid
  have hsa : isSanitized print state.repositorySource = true := beq_iff_eq.mpr hs
  have hs : checked (isSanitized print) (fun s _ => s) (encode state).repositorySource =
      .ok state.repositorySource := checked_eq_ok hsa
  have hp : checked isIdentityToken IdentityToken.mk (encode state).devcontainerProfile =
      .ok state.devcontainerProfile := checked_eq_ok state.devcontainerProfile.valid
  have hc : checked isConfigPath DesiredConfigPath.mk
      (encode state).desiredDevcontainerConfig = .ok state.desiredDevcontainerConfig :=
    checked_eq_ok state.desiredDevcontainerConfig.valid
  have hcr : checked isTimestamp StateTimestamp.mk (encode state).createdAt =
      .ok state.createdAt := checked_eq_ok state.createdAt.valid
  have ho : decodeOperation (encode state).operation = .ok ⟨state.operation,state.started⟩ :=
    checked_eq_ok (isTimedOperation_iff.mpr ⟨state.operation.valid,state.started⟩)
  have hsu : decodeSummary (encode state).lastError = .ok state.lastError :=
    decodeSummary_encode state.lastError
  have hcu : decodeCurrent print (encode state) = .ok state := by
    unfold decodeCurrent
    rw [hi,hn,hs,hp,hc,decodeFingerprints_encode,hcr,ho,hsu]
    rfl
  exact hcu

end Cdenv.StateFile
