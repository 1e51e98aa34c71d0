import Mathlib.Data.List.Perm.Basic
import Cdenv.CredentialRevisions

/-!
# Whom consent is given to

A user gives consent for the workspace that is live under a name, or in advance for one
that will be created under it by an explicit choice. Workspaces come and go under the
name, and directories, times and even nonces may repeat. Unless a workspace is moved away
and put back, a lease carries only permissions that were asked for in its own workspace, or
staged before that workspace was explicitly created.

The reason is where receipts can appear. A workspace starts without one. A record with
grants that is bound elsewhere never lets one be written, and a staged record with grants
lets one be written only at the end of an explicit creation. A workspace that was moved away
and is put back may however have a receipt from before, and takes on what was staged
meanwhile.
-/
namespace Cdenv.CredentialStore
open TextScan Fallible Identity Credentials CredentialBackend List Option

section permissions
variable {gs changed : CredentialGrants} {permission : Permission}
variable {fromRepositorySource : Text → Option HttpsOrigin} {workspace : Option Workspace}

theorem not_isIn_of_isEmpty (h : gs.isEmpty = true) : permission.isIn gs = false := by
  simp only [CredentialGrants.isEmpty,Bool.and_eq_true,isNone_iff_eq_none,Bool.not_eq_true'] at h
  obtain ⟨⟨hh,ha⟩,hi⟩ := h
  cases permission with
  | https o => simp [Permission.isIn,CredentialGrants.allows,hh]
  | sshAgent sel => simp [Permission.isIn,ha]
  | gitIdentity => exact hi

theorem isEmpty_eq_false (h : permission.isIn gs = true) : gs.isEmpty = false := by
  by_contra he
  rw [Bool.not_eq_false] at he
  rw [not_isIn_of_isEmpty he] at h
  cases h

variable {os : List HttpsOrigin}

/-- An operation on HTTPS grants at most the origins that it adds. -/
theorem isIn_committed (op : GrantOperation) (hop : op.capability = .gitHttps)
    (h : (op.perform gs).committed = .ok changed) (hin : permission.isIn changed = true) :
    permission.isIn gs = true ∨ ∃ origin, op.Adds origin ∧ permission = .https origin := by
  have he := GrantOperation.effect_of_committed op h
  have ho := he.others
  rw [hop] at ho
  cases permission with
  | https origin =>
    rcases (he.allows origin).mp hin with ha | ⟨hg,-⟩
    · exact .inr ⟨origin,ha,rfl⟩
    · exact .inl hg
  | sshAgent selector =>
    rw [Permission.isIn,ho.sshAgent nofun] at hin
    exact .inl hin
  | gitIdentity =>
    rw [Permission.isIn,ho.gitIdentity nofun] at hin
    exact .inl hin

theorem isIn_enableHttps (h : (gs.enableHttps os).committed = .ok changed)
    (hin : permission.isIn changed = true) :
    permission.isIn gs = true ∨ ∃ origin ∈ os, permission = .https origin :=
  isIn_committed (.enableHttps os) rfl h hin

variable {cap : CredentialCapability}

theorem isIn_disable (hin : permission.isIn (gs.disable cap) = true) :
    permission.isIn gs = true := by
  cases cap with
  | gitHttps =>
    cases permission with
    | https o => cases hin
    | sshAgent sel | gitIdentity => exact hin
  | sshAgent =>
    cases permission with
    | https o => exact hin
    | sshAgent sel => cases hin
    | gitIdentity => exact hin
  | gitIdentity =>
    cases permission with
    | https o | sshAgent sel => exact hin
    | gitIdentity => cases hin

theorem isEmpty_disable (h : gs.isEmpty = true) : (gs.disable cap).isEmpty = true := by
  simp only [CredentialGrants.isEmpty,Bool.and_eq_true,isNone_iff_eq_none,Bool.not_eq_true'] at h
  cases cap <;> simp [CredentialGrants.disable,CredentialGrants.isEmpty,h]

variable {caps : List CredentialCapability}

theorem isEmpty_disableAll (h : (disableAll gs caps).isEmpty = false) : gs.isEmpty = false := by
  by_contra he
  rw [Bool.not_eq_false] at he
  exact Bool.false_ne_true (h.symm.trans (disableAll_induction
    (P := fun gs => gs.isEmpty = true) rfl (fun _ _ => isEmpty_disable) he))

theorem isIn_disableAll (hin : permission.isIn (disableAll gs caps) = true) :
    permission.isIn gs = true := by
  by_contra hn
  exact disableAll_induction (P := fun gs => ¬ permission.isIn gs = true)
    (by rw [not_isIn_of_isEmpty rfl]; exact Bool.false_ne_true)
    (fun _ _ hn hin => hn (isIn_disable hin)) hn hin

variable {socket : Option SshAgentSelector}

/-- Without origins the repository's own is asked for, if there is no grant yet. -/
theorem isIn_enable_gitHttps
    (h : enable fromRepositorySource gs (.gitHttps os) workspace = .ok changed)
    (hin : permission.isIn changed = true) : permission.isIn gs = true ∨
      permission ∈ requests fromRepositorySource gs workspace (.enable (.gitHttps os)) := by
  simp only [enable] at h
  cases os with
  | cons o xs =>
    rcases isIn_enableHttps h hin with ho | ⟨b,hot,rfl⟩
    · exact .inl ho
    · exact .inr (mem_map_of_mem hot)
  | nil =>
    simp only [requests]
    cases he : gs.enabled .gitHttps with
    | true =>
      rw [he] at h
      rcases isIn_enableHttps h hin with ho | ⟨b,hot,-⟩
      · exact .inl ho
      · cases hot
    | false =>
      rw [he] at h
      obtain ⟨o,hor,hc⟩ := bind_eq_ok.mp h
      rw [orFail_eq_ok] at hor
      rw [hor]
      rcases isIn_enableHttps hc hin with ho | ⟨b,hot,rfl⟩
      · exact .inl ho
      · rw [mem_singleton.mp hot]
        exact .inr (mem_singleton_self _)

theorem isIn_enable_sshAgent
    (h : enable fromRepositorySource gs (.sshAgent socket) workspace = .ok changed)
    (hin : permission.isIn changed = true) : permission.isIn gs = true ∨
      permission ∈ requests fromRepositorySource gs workspace (.enable (.sshAgent socket)) := by
  cases h
  cases permission with
  | https o | gitIdentity => exact .inl hin
  | sshAgent sel =>
    have hs := some.inj (eq_of_beq hin)
    right
    cases socket with
    | some chosen =>
      subst hs
      exact mem_singleton_self _
    | none =>
      simp only [requests]
      cases ha : gs.sshAgent with
      | some current | none =>
        rw [ha] at hs
        subst hs
        exact mem_singleton_self _

variable {command : CredentialsCommand}

/-- A command adds what it asks for and nothing else. -/
theorem isIn_changeGrants (h : changeGrants fromRepositorySource gs workspace command = .ok changed)
    (hin : permission.isIn changed = true) :
    permission.isIn gs = true ∨
      permission ∈ requests fromRepositorySource gs workspace command := by
  cases command with
  | enable cap =>
    cases cap with
    | gitHttps os => exact isIn_enable_gitHttps h hin
    | sshAgent socket => exact isIn_enable_sshAgent h hin
    | gitIdentity =>
      cases h
      cases permission with
      | https o | sshAgent sel => exact .inl hin
      | gitIdentity => exact .inr (mem_singleton_self _)
  | allow os =>
    rcases isIn_committed (.adjustOrigins os true) rfl h hin with ho | ⟨o,hor,rfl⟩
    · exact .inl ho
    · exact .inr (mem_map_of_mem hor)
  | deny os =>
    rcases isIn_committed (.adjustOrigins os false) rfl h hin with ho | ⟨_,⟨⟩,_⟩
    exact .inl ho
  | disable caps =>
    cases h
    exact .inl (isIn_disableAll hin)

end permissions

/-- The permission was asked for in the workspace, or staged before it was explicitly
created. -/
def ConsentedFor (consents : List Consent) (live : Workspace) (permission : Permission) : Prop :=
  ∃ consent ∈ consents, consent.permission = permission ∧
    (consent.workspace = some live.incarnation ∨
      consent.workspace = none ∧ consent.moment ≤ live.incarnation ∧ live.explicitName = true)

/-- The permission was staged when at most so many workspaces had been created. -/
def StagedBy (consents : List Consent) (moment : ℕ) (permission : Permission) : Prop :=
  ∃ consent ∈ consents, consent.permission = permission ∧ consent.workspace = none ∧
    consent.moment ≤ moment

/-- The workspaces whose directories exist. -/
def System.workspaces (s : System) : List Workspace := s.store.workspace.toList++s.parked

/-- How many workspaces there were at most when the staged grants were staged: those before
the live one, unless it was put back. -/
def System.horizon (s : System) : ℕ :=
  match s.store.workspace with
  | some live => if live.returned then s.created else live.incarnation
  | none => s.created

/-- A directory has one workspace, and a receipt names the directory in which it lies. -/
structure Placed (s : System) : Prop where
  directories : (s.workspaces.map (·.directory)).Nodup
  receipts : ∀ w ∈ s.workspaces, ∀ receipt, w.receipt = some receipt →
    receipt.directory = w.directory
  numbers : ∀ w ∈ s.workspaces, w.incarnation < s.created

/-- A staged record has what was staged in time, and a receipt beside it was left by an
explicit creation. A bound record has what was consented to for the workspaces with its
receipt. -/
def Holds (s : System) (record : PermissionRecord) : Prop :=
  match record.binding with
  | .staged =>
    (∀ permission : Permission, permission.isIn record.grants = true →
      StagedBy s.consents s.horizon permission) ∧
    (record.grants.isEmpty = false → ∀ live, s.store.workspace = some live →
      live.returned = false → live.receipt ≠ none → live.explicitName = true)
  | .bound receipt => ∀ w ∈ s.workspaces, w.receipt = some receipt →
    ∀ permission : Permission, permission.isIn record.grants = true →
      ConsentedFor s.consents w permission

structure Attributed (s : System) : Prop where
  placed : Placed s
  record : ∀ record, s.store.record = some record → Holds s record

def CredentialsCommand.isDisable : CredentialsCommand → Bool
  | .disable _ => true
  | _ => false

/-- A command other than `disable` finds staged grants in a workspace that was put back with
its receipt. -/
def System.reattaches (s : System) : Event → Bool
  | .mutate command _ _ _ => !command.isDisable &&
    (s.store.record.any fun record => record.binding == .staged && !record.grants.isEmpty) &&
    s.store.workspace.any fun live => live.returned && live.receipt.isSome
  | _ => false

variable {permission : Permission}

theorem StagedBy.mono {consents extra : List Consent} {mo lt : ℕ}
    (h : StagedBy consents mo permission) (hle : mo ≤ lt) :
    StagedBy (consents++extra) lt permission := by
  obtain ⟨consent,hm,hp,hn,hmo⟩ := h
  exact ⟨consent,mem_append_left _ hm,hp,hn,hmo.trans hle⟩

variable {live : Workspace}

theorem ConsentedFor.mono {consents extra : List Consent}
    (h : ConsentedFor consents live permission) :
    ConsentedFor (consents++extra) live permission := by
  obtain ⟨consent,hm,hf⟩ := h
  exact ⟨consent,mem_append_left _ hm,hf⟩

section places
variable {s t : System} {receipt : BindingReceipt}

theorem workspaces_of_live (hw : s.store.workspace = some live) :
    s.workspaces = live::s.parked := by
  rw [System.workspaces,hw]
  rfl

theorem workspaces_of_none (hw : s.store.workspace = none) : s.workspaces = s.parked := by
  rw [System.workspaces,hw]
  rfl

theorem Placed.of_eq (h : Placed s) (hw : t.workspaces = s.workspaces)
    (hc : t.created = s.created) : Placed t := by
  refine ⟨hw ▸ h.directories,hw ▸ h.receipts,?_⟩
  rw [hw,hc]
  exact h.numbers

/-- A receipt that names the live workspace's directory lies in no other. -/
theorem Placed.elsewhere (h : Placed s) (hw : s.store.workspace = some live)
    (hd : receipt.directory = live.directory) {w : Workspace} (hp : w ∈ s.parked) :
    w.receipt ≠ some receipt := by
  intro hr
  have hn := h.directories
  rw [workspaces_of_live hw,map_cons,nodup_cons] at hn
  have hm : w ∈ s.workspaces := mem_append_right _ hp
  exact hn.1 (mem_map.mpr ⟨w,hp,(h.receipts w hm receipt hr).symm.trans hd⟩)

theorem Placed.withReceipt (h : Placed s) (hw : s.store.workspace = some live)
    (hd : receipt.directory = live.directory)
    (ht : t.store.workspace = some { live with receipt := some receipt })
    (hp : t.parked = s.parked) (hc : t.created = s.created) : Placed t := by
  have hs := workspaces_of_live hw
  have hn := workspaces_of_live ht
  rw [hp] at hn
  obtain ⟨hdi,hre,hnu⟩ := h
  rw [hs] at hdi hre hnu
  refine ⟨?_,?_,?_⟩
  · rw [hn]
    exact hdi
  · rw [hn]
    refine forall_mem_cons.mpr ⟨fun r hr => ?_,(forall_mem_cons.mp hre).2⟩
    cases hr
    exact hd
  · rw [hn,hc]
    exact forall_mem_cons.mpr ⟨(forall_mem_cons.mp hnu).1,(forall_mem_cons.mp hnu).2⟩

theorem Placed.moveBack (h : Placed s) (hw : s.store.workspace = none) {i : ℕ} {away : Workspace}
    (hi : s.parked[i]? = some away) : Placed { s with
      store := { s.store with workspace := some { away with returned := true } }
      parked := s.parked.eraseIdx i } := by
  obtain ⟨hdi,hre,hnu⟩ := h
  rw [workspaces_of_none hw] at hdi hre hnu
  have ha := mem_of_getElem? hi
  obtain ⟨hlt,rfl⟩ := List.getElem?_eq_some_iff.mp hi
  have hp := (getElem_cons_eraseIdx_perm hlt).map (·.directory)
  refine ⟨(hp.nodup_iff.mpr hdi :),?_,?_⟩
  · exact forall_mem_cons.mpr ⟨hre s.parked[i] ha,fun w hm => hre w (mem_of_mem_eraseIdx hm)⟩
  · exact forall_mem_cons.mpr ⟨hnu s.parked[i] ha,fun w hm => hnu w (mem_of_mem_eraseIdx hm)⟩

theorem Placed.horizon_le (h : Placed s) : s.horizon ≤ s.created := by
  unfold System.horizon
  split
  · next live hw =>
    split
    · exact le_rfl
    · exact Nat.le_of_lt (h.numbers live (workspaces_of_live hw ▸ mem_cons_self))
  · exact le_rfl

end places

section histories
variable {root : Installation} {name : WorkspaceName} {sha256Hex : Text → Text}
variable {fromRepositorySource : Text → Option HttpsOrigin} {s t : System} {store : Store}
variable {old new : PermissionRecord} {receipt : BindingReceipt} {command : CredentialsCommand}

theorem attributed_start : Attributed .start :=
  ⟨⟨nodup_nil,fun _ => nofun,fun _ => nofun⟩,fun _ => nofun⟩

theorem holds_staged (hb : old.binding = .staged) : Holds s old ↔
    (∀ permission : Permission, permission.isIn old.grants = true →
      StagedBy s.consents s.horizon permission) ∧
    (old.grants.isEmpty = false → ∀ live, s.store.workspace = some live →
      live.returned = false → live.receipt ≠ none → live.explicitName = true) := by
  rw [Holds,hb]

theorem holds_bound (hb : old.binding = .bound receipt) : Holds s old ↔
    ∀ w ∈ s.workspaces, w.receipt = some receipt → ∀ permission : Permission,
      permission.isIn old.grants = true → ConsentedFor s.consents w permission := by
  rw [Holds,hb]

theorem holds_of_isEmpty (h : old.grants.isEmpty = true) : Holds s old := by
  have hn : ∀ p : Permission, ¬ p.isIn old.grants = true := fun p hp =>
    Bool.false_ne_true ((not_isIn_of_isEmpty h).symm.trans hp)
  cases hb : old.binding with
  | staged =>
    rw [holds_staged hb]
    exact ⟨fun p hp => (hn p hp).elim,fun he => (Bool.false_ne_true (he.symm.trans h)).elim⟩
  | bound receipt =>
    rw [holds_bound hb]
    exact fun w _ _ p hp => (hn p hp).elim

/-- Fewer grants under the same binding, with the same workspaces. -/
theorem Holds.fewer (h : Holds s old) (hb : new.binding = old.binding)
    (hg : ∀ p : Permission, p.isIn new.grants = true → p.isIn old.grants = true)
    (he : new.grants.isEmpty = false → old.grants.isEmpty = false)
    (hw : t.store.workspace = s.store.workspace) (hp : t.parked = s.parked)
    (hc : t.created = s.created) {extra : List Consent} (hx : t.consents = s.consents++extra) :
    Holds t new := by
  have hh : t.horizon = s.horizon := by rw [System.horizon,System.horizon,hw,hc]
  have hws : t.workspaces = s.workspaces := by rw [System.workspaces,System.workspaces,hw,hp]
  cases ho : old.binding with
  | staged =>
    rw [holds_staged ho] at h
    rw [holds_staged (hb.trans ho),hx,hh,hw]
    exact ⟨fun p hi => (h.1 p (hg p hi)).mono le_rfl,fun hn => h.2 (he hn)⟩
  | bound receipt =>
    rw [holds_bound ho] at h
    rw [holds_bound (hb.trans ho),hx,hws]
    exact fun w hm hr p hi => (h w hm hr p (hg p hi)).mono

/-- A record that is now bound to the live workspace: it is enough to look at that one. -/
theorem Placed.holds_bound (h : Placed s) (hw : s.store.workspace = some live)
    (hd : receipt.directory = live.directory) (hb : new.binding = .bound receipt)
    (ht : t.store.workspace = some { live with receipt := some receipt })
    (hp : t.parked = s.parked) (hc : ∀ permission : Permission,
      permission.isIn new.grants = true → ConsentedFor t.consents live permission) :
    Holds t new := by
  rw [CredentialStore.holds_bound hb,workspaces_of_live ht,hp]
  refine forall_mem_cons.mpr ⟨fun _ => hc,fun w hm hr => ?_⟩
  exact (h.elsewhere hw hd hm hr).elim

/-- What a staged record holds was staged for the live workspace if that was left a receipt
by its creation. -/
theorem Holds.staged_for (h : Holds s old) (hb : old.binding = .staged)
    (hw : s.store.workspace = some live) (hn : live.returned = false)
    (he : live.explicitName = true) (hin : permission.isIn old.grants = true) :
    ConsentedFor s.consents live permission := by
  rw [holds_staged hb] at h
  obtain ⟨consent,hm,hp,hno,hmo⟩ := h.1 permission hin
  simp only [System.horizon,hw,hn,Bool.false_eq_true,if_false] at hmo
  exact ⟨consent,hm,hp,.inr ⟨hno,hmo,he⟩⟩

/-- Grants to start from are those of a stored record. -/
theorem record_of_grants (h : (currentRecord root name store).grants.isEmpty = false) :
    store.record = some (currentRecord root name store) := by
  unfold currentRecord at h ⊢
  cases hr : store.record with
  | some rec => rfl
  | none =>
    rw [hr] at h
    cases h

theorem Attributed.current (h : Attributed s) : Holds s (currentRecord root name s.store) := by
  cases he : (currentRecord root name s.store).grants.isEmpty with
  | true => exact holds_of_isEmpty he
  | false => exact h.record _ (record_of_grants he)

theorem ne_of_revision (h : new.revision = (currentRecord root name store).revision+1) :
    some new ≠ store.record := by
  intro heq
  rw [currentRecord,← heq,getD_some] at h
  exact Nat.succ_ne_self _ h.symm

theorem asks_eq (root : Installation) (name : WorkspaceName) (s : System)
    (command : CredentialsCommand) :
    s.asks fromRepositorySource command =
      (requests fromRepositorySource (currentRecord root name s.store).grants s.store.workspace
        command).map fun permission =>
          ⟨permission,s.store.workspace.map (·.incarnation),s.created⟩ := by
  unfold System.asks currentRecord
  cases s.store.record with
  | none | some record => rfl

theorem mem_asks (root : Installation) (name : WorkspaceName)
    (h : permission ∈ requests fromRepositorySource (currentRecord root name s.store).grants
      s.store.workspace command) :
    ⟨permission,s.store.workspace.map (·.incarnation),s.created⟩ ∈
      s.asks fromRepositorySource command := by
  rw [asks_eq root name]
  exact mem_map_of_mem h

theorem returned_eq_false {nonce : Nonce} {rf rcf : Option AtomicWriteStage}
    (h : s.reattaches (.mutate command nonce rf rcf) = false)
    (hc : ∀ capabilities, command ≠ .disable capabilities) (hr : s.store.record = some old)
    (hb : old.binding = .staged) (he : old.grants.isEmpty = false)
    (hw : s.store.workspace = some live) (hre : live.receipt = some receipt) :
    live.returned = false := by
  have hd : command.isDisable = false := by
    cases command with
    | disable caps => exact (hc caps rfl).elim
    | enable _ | allow _ | deny _ => rfl
  simpa [System.reattaches,hd,hr,hb,he,hw,hre] using h

/-- What the first grants or grants of this workspace's own record become in it. -/
theorem Attributed.consented (h : Attributed s) (hw : s.store.workspace = some live)
    (hf : (currentRecord root name s.store).grants.isEmpty = true ∨
      live.receipt = some receipt ∧ ((currentRecord root name s.store).binding = .staged ∨
        (currentRecord root name s.store).binding = .bound receipt))
    (hn : (currentRecord root name s.store).binding = .staged →
      (currentRecord root name s.store).grants.isEmpty = false →
        live.receipt = some receipt → live.returned = false)
    (hin : permission.isIn (currentRecord root name s.store).grants = true) :
    ConsentedFor s.consents live permission := by
  have he := isEmpty_eq_false hin
  obtain ⟨hr,hb⟩ := hf.resolve_left (by rw [he]; exact Bool.false_ne_true)
  have hh := @Attributed.current root name _ h
  rcases hb with hb | hb
  · have hx := ((holds_staged hb).mp hh).2 he live hw (hn hb he hr)
      (by rw [hr]; exact some_ne_none receipt)
    exact hh.staged_for hb hw (hn hb he hr) hx hin
  · exact (holds_bound hb).mp hh live (workspaces_of_live hw ▸ mem_cons_self) hr permission hin

/-- The record is written, with the consents that led to it. -/
theorem Attributed.note (h : Placed (s.note store consents)) (hr : store.record = some new)
    (hne : some new ≠ s.store.record) (hh : Holds { s with
      store, history := s.history++store.record.toList, consents := s.consents++consents } new) :
    Attributed (s.note store consents) := by
  refine ⟨h,?_⟩
  rw [System.note,if_neg (hr ▸ hne)]
  intro rec hre
  cases hr.symm.trans hre
  exact hh

theorem Attributed.bound (h : Attributed s) (hpl : Placed (s.note store consents))
    (hw : s.store.workspace = some live) (hne : some new ≠ s.store.record)
    (hst : store = ⟨some new,some { live with receipt := some receipt }⟩)
    (hb : new.binding = .bound receipt) (hd : receipt.directory = live.directory)
    (hc : ∀ permission : Permission, permission.isIn new.grants = true →
      ConsentedFor (s.consents++consents) live permission) :
    Attributed (s.note store consents) := by
  subst hst
  exact Attributed.note hpl rfl hne (h.placed.holds_bound hw hd hb rfl rfl hc)

/-- The live workspace is as it was, or has got a receipt. -/
def Received (store next : Store) : Prop :=
  next.workspace = store.workspace ∨ ∃ live receipt, store.workspace = some live ∧
    receipt.directory = live.directory ∧
    next.workspace = some { live with receipt := some receipt }

theorem Mutated.workspace {st next : Store}
    (h : Mutated root name fromRepositorySource st command next) : Received st next := by
  cases h with
  | same | disabled | staged => exact .inl rfl
  | received hw hre hd he => exact .inr ⟨_,_,hw,hd,rfl⟩
  | bound hw hr hg hf hb hd hc => exact .inr ⟨_,_,hw,hd,rfl⟩

theorem Bound.workspace {st next : Store} (hw : st.workspace = some live)
    (h : Bound st live next) : Received st next := by
  cases h with
  | same => exact .inl rfl
  | received hr hb he hre hd => exact .inr ⟨_,_,hw,hd,rfl⟩
  | bound hr hb he hd => exact .inr ⟨_,_,hw,hd,rfl⟩

theorem Placed.note (h : Placed s) (hr : Received s.store store) (consents : List Consent) :
    Placed (s.note store consents) := by
  have hs : (s.note store consents).store = store := by
    unfold System.note
    split_ifs <;> rfl
  have hp : (s.note store consents).parked = s.parked := by
    unfold System.note
    split_ifs <;> rfl
  have hc : (s.note store consents).created = s.created := by
    unfold System.note
    split_ifs <;> rfl
  rcases hr with hr | ⟨live,receipt,hw,hd,hr⟩
  · refine h.of_eq ?_ hc
    rw [System.workspaces,System.workspaces,hs,hp,hr]
  · exact h.withReceipt hw hd ((congrArg Store.workspace hs).trans hr) hp hc

theorem Attributed.mutated (h : Attributed s)
    (hst : Mutated root name fromRepositorySource s.store command store) {nonce : Nonce}
    {rf rcf : Option AtomicWriteStage}
    (hno : s.reattaches (.mutate command nonce rf rcf) = false) :
    Attributed (s.note store (s.asks fromRepositorySource command)) := by
  have hpl := h.placed.note hst.workspace (s.asks fromRepositorySource command)
  cases hst with
  | same =>
    rw [System.note,if_pos rfl]
    exact h
  | received hw hre hd he =>
    refine ⟨hpl,?_⟩
    rw [System.note,if_pos rfl]
    intro rec hr
    rw [currentRecord,(hr : s.store.record = some rec)] at he
    exact holds_of_isEmpty he
  | @disabled new caps hrv hg hb =>
    refine Attributed.note hpl rfl (ne_of_revision hrv) ?_
    cases he : new.grants.isEmpty with
    | true => exact holds_of_isEmpty he
    | false =>
      rw [he] at hb
      refine (@Attributed.current root name _ h).fewer hb (fun p hp => ?_) (fun hn => ?_)
        rfl rfl rfl rfl
      · exact isIn_disableAll (hg ▸ hp)
      · exact isEmpty_disableAll (hg ▸ hn)
  | @staged new hw hrv hg hf hb =>
    refine Attributed.note hpl rfl (ne_of_revision hrv) ?_
    have hho : s.horizon = s.created := by rw [System.horizon,hw]
    rw [holds_staged hb,System.horizon,hw]
    refine ⟨fun p hp => ?_,fun _ _ h => by cases h⟩
    rcases isIn_changeGrants hg hp with ho | ha
    · have hn := hf.resolve_left (by rw [isEmpty_eq_false ho]; exact Bool.false_ne_true)
      have hs := (holds_staged hn).mp (@Attributed.current root name _ h)
      exact (hs.1 p ho).mono hho.le
    · rw [← hw] at ha
      have hm := mem_asks root name ha
      rw [hw] at hm
      exact ⟨_,mem_append_right _ hm,rfl,rfl,le_rfl⟩
  | @bound new live rcpt hw hrv hg hf hb hd hcm =>
    refine h.bound hpl hw (ne_of_revision hrv) rfl hb hd fun p hp => ?_
    rcases isIn_changeGrants hg hp with ho | ha
    · exact (h.consented hw hf (fun hs he hr =>
        returned_eq_false hno hcm (record_of_grants he) hs he hw hr) ho).mono
    · rw [← hw] at ha
      have hm := mem_asks root name ha
      rw [hw] at hm
      exact ⟨_,mem_append_right _ hm,rfl,.inl rfl⟩

theorem Attributed.bind (h : Attributed s) (hw : s.store.workspace = some live)
    (hn : live.returned = false) (hst : Bound s.store live store) :
    Attributed (s.note store []) := by
  have hpl := h.placed.note (hst.workspace hw) []
  cases hst with
  | same =>
    rw [System.note,if_pos rfl]
    exact h
  | @received old rcpt hr hb he hrc hd =>
    refine ⟨hpl,?_⟩
    rw [System.note,if_pos rfl]
    intro rec ho
    cases hr.symm.trans ho
    have hs := (holds_staged hb).mp (h.record old hr)
    rw [holds_staged hb]
    refine ⟨fun p hp => ?_,fun _ b hot _ _ => ?_⟩
    · have hsp := hs.1 p hp
      rw [System.horizon,hw] at hsp
      exact hsp
    · cases hot
      exact he
  | @bound old rcpt hr hb he hd =>
    refine h.bound hpl hw ?_ rfl rfl hd fun p hp => ?_
    · rw [hr]
      intro heq
      exact Nat.succ_ne_self _ (congrArg PermissionRecord.revision (some.inj heq))
    · exact ((h.record old hr).staged_for hb hw hn he hp).mono

theorem Attributed.create (h : Attributed s) (hw : s.store.workspace = none)
    (hl : live.incarnation = s.created) (hr : live.receipt = none) (hn : live.returned = false)
    (hd : ∀ w ∈ s.parked, w.directory ≠ live.directory) :
    Attributed { s with
      store := { s.store with workspace := some live }
      created := s.created+1 } := by
  obtain ⟨⟨hdi,hre,hnu⟩,hrec⟩ := h
  rw [workspaces_of_none hw] at hdi hre hnu
  refine ⟨⟨?_,?_,?_⟩,fun rec hrc => ?_⟩
  · refine nodup_cons.mpr ⟨fun hm => ?_,hdi⟩
    obtain ⟨w,hp,heq⟩ := mem_map.mp hm
    exact hd w hp heq
  · refine forall_mem_cons.mpr ⟨fun r hr' => ?_,hre⟩
    cases hr.symm.trans hr'
  · exact forall_mem_cons.mpr ⟨hl ▸ Nat.lt_succ_self _,fun w hm => Nat.lt_succ_of_lt (hnu w hm)⟩
  · have hh := hrec rec hrc
    cases hb : rec.binding with
    | staged =>
      rw [holds_staged hb,System.horizon,hw] at hh
      rw [holds_staged hb,System.horizon]
      simp only [hn,Bool.false_eq_true,if_false,hl]
      refine ⟨hh.1,fun _ b ho _ hs => ?_⟩
      cases ho
      exact (hs hr).elim
    | bound rcpt =>
      rw [holds_bound hb,workspaces_of_none hw] at hh
      rw [holds_bound hb]
      refine forall_mem_cons.mpr ⟨fun hs => ?_,hh⟩
      cases hr.symm.trans hs

/-- A workspace that is no longer live: all that is staged has been staged by now. -/
theorem Attributed.vacate (h : Attributed s) {parked : List Workspace}
    (hp : parked.Sublist s.workspaces) :
    Attributed { s with store := { s.store with workspace := none }, parked } := by
  refine ⟨⟨(hp.map _).nodup h.placed.directories,fun w hm => h.placed.receipts w (hp.subset hm),
    fun w hm => h.placed.numbers w (hp.subset hm)⟩,fun rec hr => ?_⟩
  have hh := h.record rec hr
  cases hb : rec.binding with
  | staged =>
    rw [holds_staged hb] at hh ⊢
    refine ⟨fun p hi => ?_,fun _ => nofun⟩
    obtain ⟨consent,hm,hc,hn,hmo⟩ := hh.1 p hi
    exact ⟨consent,hm,hc,hn,hmo.trans h.placed.horizon_le⟩
  | bound rcpt =>
    rw [holds_bound hb] at hh ⊢
    exact fun w hm => hh w (hp.subset hm)

theorem Attributed.moveBack (h : Attributed s) (hw : s.store.workspace = none) {i : ℕ}
    {away : Workspace} (hi : s.parked[i]? = some away) :
    Attributed { s with
      store := { s.store with workspace := some { away with returned := true } }
      parked := s.parked.eraseIdx i } := by
  refine ⟨h.placed.moveBack hw hi,fun rec hr => ?_⟩
  have hh := h.record rec hr
  cases hb : rec.binding with
  | staged =>
    rw [holds_staged hb,System.horizon,hw] at hh
    rw [holds_staged hb]
    refine ⟨hh.1,fun _ live ho hn => ?_⟩
    cases ho
    cases hn
  | bound rcpt =>
    rw [holds_bound hb,workspaces_of_none hw] at hh
    rw [holds_bound hb]
    exact forall_mem_cons.mpr ⟨hh away (mem_of_getElem? hi),
      fun w hm => hh w (mem_of_mem_eraseIdx hm)⟩

theorem Attributed.step (h : Attributed s) {e : Event} (hno : s.reattaches e = false)
    (ht : s.step root name sha256Hex fromRepositorySource e = some t) : Attributed t := by
  cases stepped_of_step ht with
  | mutated he hm => exact h.mutated hm (he ▸ hno)
  | created hw hi hr hn hd => exact h.create hw hi hr hn hd
  | bound hw hn hb => exact h.bind hw hn hb
  | vacated hp => exact h.vacate hp
  | returned hw hi => exact h.moveBack hw hi
  | leased | supervised | reconciled =>
    exact ⟨⟨h.placed.directories,h.placed.receipts,h.placed.numbers⟩,h.record⟩

/-- A lease for the live workspace: the recorded receipt names this very directory, and
every permission was consented to for this workspace. -/
structure Authorized (s : System) (sha256Hex : Text → Text) (live : Workspace)
    (lease : SupervisorCredentialLease) : Prop where
  receipt : ∃ record receipt, s.store.record = some record ∧ record.binding = .bound receipt ∧
    receipt.directoryDevice = live.device ∧ receipt.directoryInode = live.inode ∧
    receipt.createdAt = live.state.createdAt ∧
    receipt.sourceDigest = sha256Hex live.state.repositorySource
  consent : ∀ permission : Permission, permission.isIn lease.grants = true →
    ConsentedFor s.consents live permission

/-- After any history in which no command finds staged grants in a workspace that was put back
with its receipt, a lease carries only what was consented to in the live workspace or staged for
it before its explicit creation. -/
theorem authorized_lease {events : List Event} {live : Workspace} {user : CredentialUserIdentity}
    {home : Text} {generation : GenerationId} {lease : SupervisorCredentialLease}
    (h : EventRun.run (System.step root name sha256Hex fromRepositorySource) .start events = some s)
    (hevents : EventRun.Along (System.step root name sha256Hex fromRepositorySource)
      (fun s e => s.reattaches e = false) .start events)
    (hworkspace : s.store.workspace = some live)
    (hlease : credentialSupervisorLease root name sha256Hex s.store live user home generation =
      .ok (some lease)) :
    Authorized s sha256Hex live lease := by
  have ha := EventRun.run_invariant_along (fun _ _ _ hs hn ht => hs.step hn ht) attributed_start
    hevents h
  obtain ⟨rec,hr,-,hbo,-,hg⟩ := credentialSupervisorLease_eq_ok hlease
  obtain ⟨rcpt,hb,hm,hre⟩ := boundMatches_eq_true hbo
  refine ⟨⟨rec,rcpt,hr,hb,?_⟩,?_⟩
  · simp only [BindingReceipt.matches,Bool.and_eq_true,beq_iff_eq] at hm
    obtain ⟨⟨⟨⟨⟨⟨⟨-,-⟩,-⟩,hc⟩,hdi⟩,hd⟩,hi⟩,-⟩ := hm
    exact ⟨hd,hi,hc,hdi⟩
  · intro permission hin
    rw [hg] at hin
    have hl : live ∈ s.workspaces := workspaces_of_live hworkspace ▸ mem_cons_self
    exact (holds_bound hb).mp (ha.record rec hr) live hl hre permission hin

end histories

/-- A workspace with a receipt is moved away and put back, and then changed. -/
def movedWorkspace : List Event :=
  [.mutate (.enable .gitIdentity) sampleNonce none none,
    .create 1 7 "2026-01-01T00:00:00Z" "https://example.com/a.git" true,
    .bind sampleNonce none none,.moveAway,.moveBack 0,
    .mutate (.enable (.sshAgent none)) sampleNonce none none]

/-- A lease after events under the sample's name. -/
theorem exists_sampleLease (events : List Event)
    (p : System → Workspace → SupervisorCredentialLease → Bool)
    (h : ((EventRun.run (System.step sampleRoot sampleLease.workspace id fun _ => none) .start
      events).any fun s => s.store.workspace.any fun live =>
        (credentialSupervisorLease sampleRoot sampleLease.workspace id s.store live
          sampleLease.user "/root" sampleLease.generation).toOption.join.any (p s live)) = true) :
    ∃ s live lease, EventRun.run (System.step sampleRoot sampleLease.workspace id fun _ => none)
        .start events = some s ∧ s.store.workspace = some live ∧
      credentialSupervisorLease sampleRoot sampleLease.workspace id s.store live sampleLease.user
        "/root" sampleLease.generation = .ok (some lease) ∧ p s live lease = true := by
  obtain ⟨s,hs,h⟩ := (Option.any_eq_true _ _).mp h
  obtain ⟨live,hw,h⟩ := (Option.any_eq_true _ _).mp h
  obtain ⟨lease,hj,h⟩ := (Option.any_eq_true _ _).mp h
  exact ⟨s,live,lease,hs,hw,toOption_eq_some.mp (join_eq_some_iff.mp hj),h⟩

theorem authorized_lease_movedWorkspace : ∃ s live lease,
    EventRun.run (System.step sampleRoot sampleLease.workspace id (fun _ => none)) .start
      movedWorkspace = some s ∧ s.store.workspace = some live ∧
      credentialSupervisorLease sampleRoot sampleLease.workspace id s.store live sampleLease.user
        "/root" sampleLease.generation = .ok (some lease) ∧
      lease.grants.gitIdentity = true ∧ Authorized s id live lease := by
  obtain ⟨s,live,lease,hs,hw,hle,hl⟩ := exists_sampleLease movedWorkspace
    (fun _ _ lease => lease.grants.gitIdentity) (by decide +kernel)
  exact ⟨s,live,lease,hs,hw,hle,hl,authorized_lease hs (by decide +kernel) hw hle⟩

/-- A grant that is staged while an implicitly named workspace is away. -/
def stagedWhileAway : List Event :=
  [.create 1 7 "2026-01-01T00:00:00Z" "https://example.com/a.git" false,
    .mutate (.enable .gitIdentity) sampleNonce none none,
    .mutate (.disable []) sampleNonce none none,.moveAway,
    .mutate (.enable (.sshAgent none)) sampleNonce none none,.moveBack 0,
    .mutate (.enable .gitIdentity) sampleNonce none none]

/-- The next command in the workspace that was put back attaches the grant to it. -/
theorem stagedWhileAway_attached : ∃ s live lease,
    EventRun.run (System.step sampleRoot sampleLease.workspace id (fun _ => none)) .start
      stagedWhileAway = some s ∧ s.store.workspace = some live ∧ live.explicitName = false ∧
      credentialSupervisorLease sampleRoot sampleLease.workspace id s.store live sampleLease.user
        "/root" sampleLease.generation = .ok (some lease) ∧ ¬ Authorized s id live lease := by
  obtain ⟨s,live,lease,hs,hw,hle,h⟩ := exists_sampleLease stagedWhileAway
    (fun s live lease => decide ((∀ c ∈ s.consents, c.permission = .sshAgent .automatic →
      c.workspace = none) ∧ live.explicitName = false ∧
        (Permission.sshAgent .automatic).isIn lease.grants = true)) (by decide +kernel)
  obtain ⟨hc,hx,hin⟩ := of_decide_eq_true h
  refine ⟨s,live,lease,hs,hw,hx,hle,fun h => ?_⟩
  obtain ⟨consent,hm,hp,hfor⟩ := h.consent _ hin
  rcases hfor with hlive | ⟨-,-,he⟩
  · cases (hc consent hm hp).symm.trans hlive
  · cases hx.symm.trans he

end Cdenv.CredentialStore
