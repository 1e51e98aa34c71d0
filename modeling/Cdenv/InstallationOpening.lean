import Cdenv.EventRun
import Cdenv.Identity

/-!
# Opening an installation

The first call on a root draws an identity and a fingerprint key, writes the key and then the
record that names both; a later one loads them. No lock is held between the inspection of the
record and these writes, so two calls that both find nothing both create, and each returns an
identity of its own.

Each replacement of a file is atomic and nothing removes one. A call that meets a failure of
the system returns an error and is one that takes no further step here.
-/
namespace Cdenv.InstallationOpening
open TextScan Identity EventRun

def installationSchemaVersion : ℕ := 1

def fingerprintKeyLength : ℕ := 32

inductive SshIncludeConsent where
  | unknown | accepted | declined

structure InstallationRecord where
  schemaVersion : ℕ
  installationId : IdentityToken
  sshIncludeConsent : SshIncludeConsent
  fingerprintKeyId : Text

structure FingerprintKey where
  bytes : List UInt8
  length_eq : bytes.length = fingerprintKeyLength

inductive FingerprintKeyUnknownReason where
  | missing | replaced

inductive FingerprintKeyState where
  | available (key : FingerprintKey)
  | unknown (reason : FingerprintKeyUnknownReason)

structure Installation where
  record : InstallationRecord
  fingerprintKey : FingerprintKeyState

inductive InstallationError where
  | missingRecord
  | unsupportedSchema (found : ℕ)

structure Draw where
  key : FingerprintKey
  id : IdentityToken

/-- The record file holds what its text parses to. -/
structure Files where
  record : Option InstallationRecord
  key : Option (List UInt8)

section
variable (keyId : List UInt8 → Text)

def Draw.record (draw : Draw) : InstallationRecord where
  schemaVersion := installationSchemaVersion
  installationId := draw.id
  sshIncludeConsent := .unknown
  fingerprintKeyId := keyId draw.key.bytes

def readRecord (files : Files) : Except InstallationError InstallationRecord :=
  match files.record with
  | none => .error .missingRecord
  | some record =>
    if record.schemaVersion ≠ installationSchemaVersion then
      .error (.unsupportedSchema record.schemaVersion)
    else .ok record

def readKey (record : InstallationRecord) (files : Files) : FingerprintKeyState :=
  match files.key with
  | none => .unknown .missing
  | some bytes =>
    if h : bytes.length = fingerprintKeyLength ∧ keyId bytes = record.fingerprintKeyId then
      .available ⟨bytes,h.1⟩
    else .unknown .replaced

def load (files : Files) : Except InstallationError Installation := do
  let record ← readRecord files
  return ⟨record,readKey keyId record files⟩

end

/-- How far a call of `open_or_create` has come. -/
inductive Call where
  | entered | creating | keyed | loading
  | loaded (record : InstallationRecord)
  | returned (result : Except InstallationError Installation)

/-- A run interleaves the file operations of any number of calls. -/
structure State (n : ℕ) extends Files where
  calls : Fin n → Call

def State.fresh (n : ℕ) : State n where
  record := none
  key := none
  calls _ := .entered

def State.advance {n : ℕ} (s : State n) (i : Fin n) (call : Call) : State n :=
  { s with calls := Function.update s.calls i call }

variable {n : ℕ} {keyId : List UInt8 → Text} {draws : Fin n → Draw}

/-- One file operation of one call. -/
def step (keyId : List UInt8 → Text) (draws : Fin n → Draw) (s : State n) (i : Fin n) :
    Option (State n) :=
  match s.calls i with
  | .entered => some (s.advance i (if s.record.isNone then .creating else .loading))
  | .creating => some { s.advance i .keyed with key := some (draws i).key.bytes }
  | .keyed =>
    let record := (draws i).record keyId
    some { s.advance i (.returned (.ok ⟨record,.available (draws i).key⟩)) with
      record := some record }
  | .loading => some (s.advance i (match readRecord s.toFiles with
    | .ok record => .loaded record
    | .error error => .returned (.error error)))
  | .loaded record =>
    some (s.advance i (.returned (.ok ⟨record,readKey keyId record s.toFiles⟩)))
  | .returned _ => none

/-- A later load gives the identity that the call has returned, with its key. -/
def Agreed (keyId : List UInt8 → Text) (s : State n) : Prop :=
  ∀ i installation, s.calls i = .returned (.ok installation) → ∃ later key,
    load keyId s.toFiles = .ok later ∧ later.fingerprintKey = .available key ∧
      later.record.installationId = installation.record.installationId

def Call.inspects : Call → Bool
  | .entered => true
  | _ => false

/-- The call has found nothing and has not written its record yet. -/
def Call.creates : Call → Bool
  | .creating | .keyed => true
  | _ => false

/-- A call inspects a missing record only while no other call is creating one. -/
def Exclusive (s : State n) (i : Fin n) : Prop :=
  (s.calls i).inspects = true → s.record.isNone = true → ∀ j, (s.calls j).creates = false

instance {s : State n} {i : Fin n} : Decidable (Exclusive s i) :=
  inferInstanceAs (Decidable (_ → _ → _))

/-- What a call may be while `owner` is the one that creates. -/
def Call.Fits (draws : Fin n → Draw) (owner : Option (Fin n)) (files : Files) (j : Fin n) :
    Call → Prop
  | .entered | .returned (.error _) => True
  | .creating => owner = some j ∧ files.record = none
  | .keyed => owner = some j ∧ files.record = none ∧ files.key = some (draws j).key.bytes
  | .loading => files.record ≠ none
  | .loaded record => files.record = some record
  | .returned (.ok installation) => files.record = some installation.record

variable {owner owner' : Option (Fin n)} {files files' : Files} {i j : Fin n} {call : Call}
variable {s t : State n}

/-- A call that does not create knows of the record only. -/
theorem Call.Fits.of_record (h : call.Fits draws owner files j) (hc : call.creates = false)
    (hr : files.record = none ∨ files'.record = files.record) :
    call.Fits draws owner' files' j := by
  cases call with
  | entered => trivial
  | creating | keyed => cases hc
  | loading => exact fun hn => h ((hr.resolve_left h).symm.trans hn)
  | loaded rec =>
    rcases hr with hn | hs
    · cases hn.symm.trans h
    · exact hs.trans h
  | returned r =>
    cases r with
    | error error => trivial
    | ok inst =>
      rcases hr with hn | hs
      · cases hn.symm.trans h
      · exact hs.trans h

theorem Call.Fits.owner_eq (h : call.Fits draws owner files j) (hc : call.creates = true) :
    owner = some j := by
  cases call with
  | creating | keyed => exact h.1
  | entered | loading | loaded record | returned result => cases hc

/-- One call creates at a time, and a record names the key that is there. -/
structure Single (keyId : List UInt8 → Text) (draws : Fin n → Draw) (s : State n) : Prop where
  calls : ∃ owner, ∀ j, (s.calls j).Fits draws owner s.toFiles j
  stored : ∀ record, s.record = some record →
    ∃ i, record = (draws i).record keyId ∧ s.key = some (draws i).key.bytes

theorem single_update (owner : Option (Fin n)) {calls : Fin n → Call}
    (hc : call.Fits draws owner files i)
    (ho : ∀ j, j ≠ i → (calls j).Fits draws owner files j)
    (hs : ∀ rec, files.record = some rec →
      ∃ i, rec = (draws i).record keyId ∧ files.key = some (draws i).key.bytes) :
    Single keyId draws ⟨files,Function.update calls i call⟩ :=
  ⟨⟨owner,(Function.forall_update_iff _ _).mpr ⟨hc,ho⟩⟩,hs⟩

theorem readRecord_eq_ok {record : InstallationRecord} (h : readRecord files = .ok record) :
    files.record = some record := by
  unfold readRecord at h
  split at h
  · cases h
  · next hr =>
    split_ifs at h
    cases h
    exact hr

theorem single_step (hs : Single keyId draws s) (he : Exclusive s i)
    (h : step keyId draws s i = some t) : Single keyId draws t := by
  obtain ⟨⟨owner,hc⟩,hst⟩ := hs
  have hi := hc i
  have ho : (s.calls i).creates = true → ∀ j, j ≠ i → (s.calls j).creates = false := by
    intro hcr j hj
    by_contra hot
    rw [Bool.not_eq_false] at hot
    have how := (hc j).owner_eq hot
    exact hj (Option.some.inj (how.symm.trans (hi.owner_eq hcr)))
  unfold step at h
  cases hca : s.calls i with
  | entered =>
    rw [hca] at h
    cases h
    cases hr : s.record with
    | some rec =>
      refine single_update owner (fun hn => ?_) (fun j _ => hc j) hst
      cases hn.symm.trans hr
    | none =>
      have hn := he (by rw [hca]; rfl) (by rw [hr]; rfl)
      refine single_update (some i) ⟨rfl,hr⟩ (fun j _ => ?_) hst
      exact (hc j).of_record (hn j) (.inr rfl)
  | creating =>
    rw [hca] at h hi ho
    cases h
    refine single_update owner ⟨hi.1,hi.2,rfl⟩ (fun j hj => ?_) fun rec hr => ?_
    · exact (hc j).of_record (ho rfl j hj) (.inr rfl)
    · cases hi.2.symm.trans hr
  | keyed =>
    rw [hca] at h hi ho
    cases h
    refine single_update owner rfl (fun j hj => ?_) fun rec hr => ?_
    · exact (hc j).of_record (ho rfl j hj) (.inl hi.2.1)
    · cases hr
      exact ⟨i,rfl,hi.2.2⟩
  | loading =>
    rw [hca] at h
    cases h
    refine single_update owner ?_ (fun j _ => hc j) hst
    cases hre : readRecord s.toFiles with
    | ok rec => exact readRecord_eq_ok hre
    | error error => trivial
  | loaded rec =>
    rw [hca] at h hi
    cases h
    exact single_update owner hi (fun j _ => hc j) hst
  | returned r =>
    rw [hca] at h
    cases h

/-- Where no two calls create at the same time, all return one identity. -/
theorem agreed_of_exclusive (keyId : List UInt8 → Text) (draws : Fin n → Draw)
    (schedule : List (Fin n)) (s : State n)
    (hrun : run (step keyId draws) (.fresh n) schedule = some s)
    (hexclusive : Along (step keyId draws) Exclusive (.fresh n) schedule) : Agreed keyId s := by
  have hf : Single keyId draws (State.fresh n) := ⟨⟨none,fun _ => trivial⟩,nofun⟩
  obtain ⟨⟨owner,hca⟩,hso⟩ := run_invariant_along
    (fun _ _ _ hs hco hst => single_step hs hco hst) hf hexclusive hrun
  intro i inst hrt
  have hr : s.record = some inst.record := by
    have hi := hca i
    rw [hrt] at hi
    exact hi
  obtain ⟨creator,hc,hk⟩ := hso _ hr
  have hm : (draws creator).key.bytes.length = fingerprintKeyLength ∧
      keyId (draws creator).key.bytes = inst.record.fingerprintKeyId := by
    rw [hc]
    exact ⟨(draws creator).key.length_eq,rfl⟩
  have hre : readRecord s.toFiles = .ok inst.record := by
    unfold readRecord
    rw [hr,hc]
    rfl
  refine ⟨⟨inst.record,readKey keyId inst.record s.toFiles⟩,(draws creator).key,?_,?_,rfl⟩
  · unfold load
    rw [hre]
    rfl
  · unfold readKey
    rw [hk]
    exact dif_pos hm

def sampleDraws (i : Fin 2) : Draw where
  key := ⟨List.replicate 32 (if i = 0 then 0 else 1),by split <;> rfl⟩
  id := if i = 0 then ⟨"a",by decide⟩ else ⟨"b",by decide⟩

def sampleKeyId (bytes : List UInt8) : Text := bytes.map fun byte => Char.ofNat byte.toNat

/-- The second call starts when the first has returned. -/
theorem agreed_in_turn : ∃ s, run (step sampleKeyId sampleDraws) (.fresh 2) [0,0,0,1,1,1] =
    some s ∧ Agreed sampleKeyId s :=
  ⟨_,rfl,agreed_of_exclusive _ _ [0,0,0,1,1,1] _ rfl (by decide)⟩

/-- Both calls find nothing, and each returns the identity that it has drawn. -/
theorem two_identities : ∃ s, run (step sampleKeyId sampleDraws) (.fresh 2) [0,1,0,0,1,1] =
    some s ∧ (∀ i, ∃ installation, s.calls i = .returned (.ok installation) ∧
      installation.record.installationId = (sampleDraws i).id) ∧ ¬Agreed sampleKeyId s := by
  refine ⟨_,rfl,?_,?_⟩
  · intro i
    match i with
    | 0 | 1 => exact ⟨_,rfl,rfl⟩
  · intro ha
    obtain ⟨lt,key,hl,-,hid⟩ := ha 0 _ rfl
    cases hl
    revert hid
    decide

end Cdenv.InstallationOpening
