import Cdenv.CredentialStore

/-!
# What a command can write

One case for each way in which a command or a binding can leave the store, and an event the
system, with what had to hold before. What follows about histories uses nothing else about
these functions.
-/
namespace Cdenv.CredentialStore
open TextScan Fallible Identity Credentials CredentialBackend

section helpers
variable {root : Installation} {name : WorkspaceName} {sha : Text → Text}
variable {store : Store} {record : PermissionRecord} {previous : Option PermissionRecord}
variable {e : Option AtomicWriteStage}

theorem loadScoped_eq_ok (h : loadScoped root name store = .ok previous) :
    previous = store.record := by
  simp only [loadScoped,bind_eq_ok] at h
  obtain ⟨loaded,hl,h⟩ := h
  have hp : loaded = previous := by
    split at h
    · simp only [bind_eq_ok,pure_eq_ok] at h
      obtain ⟨⟨⟩,-,h⟩ := h
      exact h
    · exact pure_eq_ok.mp h
  rw [← hp]
  unfold loadRecord at hl
  split at hl
  · next hr =>
    cases hl
    exact hr.symm
  · next hr =>
    simp only [bind_eq_ok,pure_eq_ok] at hl
    obtain ⟨⟨⟩,-,⟨⟩,-,⟨⟩,-,rfl⟩ := hl
    exact hr.symm

variable {workspace : Option Workspace}

theorem loadExistingWorkspace_eq_ok (h : loadExistingWorkspace root name store = .ok workspace) :
    workspace = store.workspace := by
  unfold loadExistingWorkspace at h
  split at h
  · next hws =>
    cases h
    exact hws.symm
  · next hws =>
    simp only [bind_eq_ok,pure_eq_ok] at h
    obtain ⟨⟨⟩,-,rfl⟩ := h
    exact hws.symm

/-- The store stays as it is, or the record is written with the next revision. -/
theorem persistChange_fst {P : Store → Prop} (hs : P store)
    (hn : P { store with record := some { record with revision := record.revision+1 } }) :
    P (persistChange store record previous e).1 := by
  unfold persistChange
  split_ifs
  · exact hs
  · exact hs
  · dsimp only
    rw [AtomicWrite.atomicWrite_fst]
    split_ifs
    · exact hn
    · exact hs

variable {live : Workspace}

theorem directory_of_matches {receipt : BindingReceipt} (h : receipt.matches sha live = true) :
    receipt.directory = live.directory := by
  simp only [BindingReceipt.matches,Bool.and_eq_true,beq_iff_eq] at h
  exact Prod.ext h.1.1.2 h.1.2

section

variable (hws : store.workspace = some live)
include hws

/-- A receipt is written at most where there was none; it names the directory in which it
lies, as does the one that is returned. -/
theorem ensureReceipt_cases (sha : Text → Text) (nonce : Nonce) (e : Option AtomicWriteStage) :
    (ensureReceipt sha store live nonce e).1 = store ∨
      live.receipt = none ∧ ∃ receipt, receipt.directory = live.directory ∧
        (ensureReceipt sha store live nonce e).1 =
          { store with workspace := some { live with receipt := some receipt } } := by
  unfold ensureReceipt
  cases hr : live.receipt with
  | some receipt => exact .inl rfl
  | none =>
    dsimp only
    rw [AtomicWrite.atomicWrite_fst]
    split_ifs
    · exact .inr ⟨rfl,_,rfl,rfl⟩
    · refine .inl ?_
      rw [← hr,← hws]

theorem ensureReceipt_eq_ok {nonce : Nonce} {next : Store} {receipt : BindingReceipt}
    (h : ensureReceipt sha store live nonce e = (next, .ok receipt)) :
    (live.receipt = none ∨ live.receipt = some receipt) ∧ receipt.directory = live.directory ∧
      next = { store with workspace := some { live with receipt := some receipt } } := by
  unfold ensureReceipt at h
  cases hr : live.receipt with
  | some old =>
    rw [hr] at h
    dsimp only at h
    split_ifs at h with hm
    · cases h
      refine ⟨.inr rfl,directory_of_matches hm,?_⟩
      rw [← hr,← hws]
    · cases h
  | none =>
    rw [hr] at h
    dsimp only at h
    split at h
    · next hw =>
      cases h
      refine ⟨.inl rfl,rfl,?_⟩
      rw [AtomicWrite.atomicWrite_snd_eq_ok.mp hw]
      rfl
    · cases h

/-- A receipt and then a record that is bound to it: nothing is written, or only the receipt, or
both. -/
theorem ensureReceipt_persistChange {P : Store → Prop} {nonce : Nonce}
    {rf : Option AtomicWriteStage} {new : BindingReceipt → PermissionRecord}
    (hs : P store) (hre : ∀ receipt, live.receipt = none → receipt.directory = live.directory →
      P { store with workspace := some { live with receipt := some receipt } })
    (hb : ∀ receipt, live.receipt = none ∨ live.receipt = some receipt →
      receipt.directory = live.directory →
      P ⟨some { new receipt with revision := (new receipt).revision+1 },
        some { live with receipt := some receipt }⟩) :
    P (match ensureReceipt sha store live nonce rf with
      | (next, .ok receipt) => persistChange next (new receipt) previous e
      | (next, .error er) => (next, .error er)).1 := by
  split
  · next next receipt he =>
    obtain ⟨hr,hd,rfl⟩ := ensureReceipt_eq_ok hws he
    refine persistChange_fst ?_ (hb receipt hr hd)
    rcases hr with hn | hso
    · exact hre receipt hn hd
    · rwa [← hso,← hws]
  · next next er he =>
    have hc := ensureReceipt_cases hws sha nonce rf
    rw [he] at hc
    rcases hc with rfl | ⟨hn,receipt,hd,rfl⟩
    · exact hs
    · exact hre receipt hn hd

end

end helpers

/-- The stored record, or the one a first command starts from. -/
def currentRecord (root : Installation) (name : WorkspaceName) (store : Store) :
    PermissionRecord := store.record.getD (newRecord root name)

section relations
variable (root : Installation) (name : WorkspaceName)
variable (fromRepositorySource : Text → Option HttpsOrigin) (store : Store)

/-- How a command leaves the store. -/
inductive Mutated (command : CredentialsCommand) : Store → Prop
  | same : Mutated command store
  | received {live : Workspace} {receipt : BindingReceipt}
      (hworkspace : store.workspace = some live) (hreceipt : live.receipt = none)
      (hdirectory : receipt.directory = live.directory)
      (hempty : (currentRecord root name store).grants.isEmpty = true) :
      Mutated command { store with workspace := some { live with receipt := some receipt } }
  | disabled {new : PermissionRecord} {capabilities : List CredentialCapability}
      (hrevision : new.revision = (currentRecord root name store).revision+1)
      (hgrants : new.grants = disableAll (currentRecord root name store).grants capabilities)
      (hbinding : new.binding =
        if new.grants.isEmpty then .staged else (currentRecord root name store).binding) :
      Mutated command { store with record := some new }
  | staged {new : PermissionRecord} (hworkspace : store.workspace = none)
      (hrevision : new.revision = (currentRecord root name store).revision+1)
      (hgrants : changeGrants fromRepositorySource (currentRecord root name store).grants none
        command = .ok new.grants)
      (hfrom : (currentRecord root name store).grants.isEmpty = true ∨
        (currentRecord root name store).binding = .staged)
      (hbinding : new.binding = .staged) :
      Mutated command { store with record := some new }
  | bound {new : PermissionRecord} {live : Workspace} {receipt : BindingReceipt}
      (hworkspace : store.workspace = some live)
      (hrevision : new.revision = (currentRecord root name store).revision+1)
      (hgrants : changeGrants fromRepositorySource (currentRecord root name store).grants
        (some live) command = .ok new.grants)
      (hfrom : (currentRecord root name store).grants.isEmpty = true ∨
        live.receipt = some receipt ∧ ((currentRecord root name store).binding = .staged ∨
          (currentRecord root name store).binding = .bound receipt))
      (hbinding : new.binding = .bound receipt) (hdirectory : receipt.directory = live.directory)
      (hcommand : ∀ capabilities, command ≠ .disable capabilities) :
      Mutated command ⟨some new,some { live with receipt := some receipt }⟩

/-- How the binding at the end of a creation leaves the store. -/
inductive Bound (live : Workspace) : Store → Prop
  | same : Bound live store
  | received {record : PermissionRecord} {receipt : BindingReceipt}
      (hrecord : store.record = some record) (hbinding : record.binding = .staged)
      (hexplicit : live.explicitName = true) (hreceipt : live.receipt = none)
      (hdirectory : receipt.directory = live.directory) :
      Bound live { store with workspace := some { live with receipt := some receipt } }
  | bound {record : PermissionRecord} {receipt : BindingReceipt}
      (hrecord : store.record = some record) (hbinding : record.binding = .staged)
      (hexplicit : live.explicitName = true) (hdirectory : receipt.directory = live.directory) :
      Bound live
        ⟨some { record with binding := .bound receipt, revision := record.revision+1 },
          some { live with receipt := some receipt }⟩

variable (sha256Hex : Text → Text) (s : System) (event : Event)

/-- How an event leaves the system. -/
inductive Stepped : System → Prop
  | mutated {command : CredentialsCommand} {nonce : Nonce} {rf rcf : Option AtomicWriteStage}
      {store : Store} (hevent : event = .mutate command nonce rf rcf)
      (h : Mutated root name fromRepositorySource s.store command store) :
      Stepped (s.note store (s.asks fromRepositorySource command))
  | created {live : Workspace} (hworkspace : s.store.workspace = none)
      (hincarnation : live.incarnation = s.created) (hreceipt : live.receipt = none)
      (hreturned : live.returned = false)
      (hdirectory : ∀ w ∈ s.parked, w.directory ≠ live.directory) :
      Stepped { s with
        store := { s.store with workspace := some live }
        created := s.created+1 }
  | bound {live : Workspace} {store : Store} (hworkspace : s.store.workspace = some live)
      (hreturned : live.returned = false) (h : Bound s.store live store) :
      Stepped (s.note store [])
  | vacated {parked : List Workspace}
      (hparked : parked.Sublist (s.store.workspace.toList++s.parked)) :
      Stepped { s with store := { s.store with workspace := none }, parked }
  | returned {i : ℕ} {away : Workspace} (hworkspace : s.store.workspace = none)
      (hparked : s.parked[i]? = some away) :
      Stepped { s with
        store := { s.store with workspace := some { away with returned := true } }
        parked := s.parked.eraseIdx i }
  | leased {live : Workspace} {user : CredentialUserIdentity} {home : Text}
      {generation : GenerationId} {lease : SupervisorCredentialLease}
      (h : credentialSupervisorLease root name sha256Hex s.store live user home generation =
        .ok (some lease)) :
      Stepped { s with leases := s.leases++[lease] }
  | supervised {lease : SupervisorCredentialLease} (hlease : lease ∈ s.leases) :
      Stepped { s with
        supervisors := s.supervisors++[.start lease.grantRevision lease.grants] }
  | reconciled {i : ℕ} {policy next : LiveCredentialPolicy} {record : PermissionRecord}
      (hrecord : record ∈ s.history)
      (h : policy.reconcile record.revision record.grants = .ok next) :
      Stepped { s with supervisors := s.supervisors.set i next }

end relations

section inversion
variable {root : Installation} {n : WorkspaceName} {sha : Text → Text}
variable {frs : Text → Option HttpsOrigin}
variable {st : Store} {cmd : CredentialsCommand} {nonce : Nonce}
variable {rf rcf : Option AtomicWriteStage}
variable {rec : PermissionRecord} {grants : CredentialGrants}

theorem prepareMutation_eq_ok (h : prepareMutation root n sha frs st rec cmd =
      .ok (workspace, grants)) :
    workspace = st.workspace ∧ validateMutationBinding sha rec workspace cmd = .ok () ∧
      changeGrants frs rec.grants workspace cmd = .ok grants := by
  simp only [prepareMutation,bind_eq_ok,mapError_eq_ok,pure_eq_ok] at h
  obtain ⟨loaded,hl,⟨⟩,hv,changed,hc,heq⟩ := h
  cases heq
  exact ⟨loadExistingWorkspace_eq_ok hl,hv,hc⟩

theorem boundMatches_eq_true (h : boundMatches sha rec live = true) : ∃ receipt,
      rec.binding = .bound receipt ∧ receipt.matches sha live = true ∧
        live.receipt = some receipt := by
  unfold boundMatches at h
  split at h
  · cases h
  · next receipt hb =>
    rw [Bool.and_eq_true] at h
    exact ⟨receipt,hb,h.1,eq_of_beq h.2⟩

/-- Outside its binding a record changes only without grants or as a staged one. -/
theorem validateMutationBinding_eq_ok (h : validateMutationBinding sha rec workspace cmd = .ok ()) :
    rec.grants.isEmpty = true ∨ (workspace = none ∧ rec.binding = .staged) ∨
      ∃ live rcpt, workspace = some live ∧ live.receipt = some rcpt ∧
        (rec.binding = .staged ∨ boundMatches sha rec live = true) := by
  unfold validateMutationBinding at h
  split_ifs at h with he
  · rw [Bool.and_eq_true] at he
    exact .inl he.1
  · refine .inr ?_
    cases hb : rec.binding with
    | staged =>
      cases workspace with
      | none => exact .inl ⟨rfl,rfl⟩
      | some live =>
        rw [hb,require_eq_ok,Option.any_eq_true] at h
        obtain ⟨rcpt,hr,-⟩ := h
        exact .inr ⟨live,rcpt,rfl,hr,.inl rfl⟩
    | bound b =>
      rw [hb] at h
      cases workspace with
      | none => cases h
      | some live =>
        rw [require_eq_ok] at h
        obtain ⟨rcpt,-,-,hr⟩ := boundMatches_eq_true h
        exact .inr ⟨live,rcpt,rfl,hr,.inr h⟩

theorem mutated_persistStaged (hws : st.workspace = none)
    (hg : changeGrants frs (currentRecord root n st).grants none
      cmd = .ok grants) (hf : (currentRecord root n st).grants.isEmpty = true ∨
      (currentRecord root n st).binding = .staged) :
    Mutated root n frs st cmd
      (persistStaged st (currentRecord root n st) st.record grants rcf).1 := by
  unfold persistStaged
  refine persistChange_fst .same (.staged hws rfl hg hf ?_)
  dsimp only
  split_ifs with he
  · rfl
  · rcases hf with hf | hf
    · cases hr : st.record with
      | none =>
        rw [currentRecord,hr]
        rfl
      | some old =>
        rw [currentRecord,hr] at hf
        rw [hr] at he
        exact (he hf).elim
    · exact hf

theorem mutated_persistBound (hws : st.workspace = some live)
    (hcm : ∀ capabilities, cmd ≠ .disable capabilities)
    (hg : changeGrants frs (currentRecord root n st).grants (some live) cmd = .ok grants)
    (hf : (currentRecord root n st).grants.isEmpty = true ∨
      ∃ receipt, live.receipt = some receipt ∧ ((currentRecord root n st).binding = .staged ∨
          boundMatches sha (currentRecord root n st) live = true)) :
    Mutated root n frs st cmd
      (persistBound sha st live (currentRecord root n st) st.record grants nonce rf rcf).1 := by
  unfold persistBound
  dsimp only
  split_ifs with hbo
  · obtain ⟨receipt,hb,hm,hr⟩ := boundMatches_eq_true hbo
    refine persistChange_fst .same ?_
    have hl : st.workspace = some { live with receipt := some receipt } := by
      rw [← hr,hws]
    rw [hl]
    exact .bound hws rfl hg (.inr ⟨hr,.inr hb⟩) hb (directory_of_matches hm) hcm
  · refine ensureReceipt_persistChange hws .same (fun receipt hn hd => ?_)
      fun receipt hr hd => .bound hws rfl hg ?_ rfl hd hcm
    · rcases hf with he | ⟨old,ho,-⟩
      · exact .received hws hn hd he
      · cases hn.symm.trans ho
    · rcases hf with he | ⟨old,ho,hb⟩
      · exact .inl he
      · exact .inr ⟨hr.resolve_left (by simp [ho]), .inl (hb.resolve_right hbo)⟩

theorem mutated_mutateCredentials : Mutated root n frs st cmd
      (mutateCredentials root n sha frs st cmd nonce rf rcf).1 := by
  unfold mutateCredentials
  split
  · exact .same
  · next previous hlo =>
    have hpr := loadScoped_eq_ok hlo
    subst hpr
    dsimp only
    split
    · exact persistChange_fst .same (.disabled rfl rfl rfl)
    · next hcm =>
      split
      · exact .same
      · next grants hp =>
        obtain ⟨hws,hv,hg⟩ := prepareMutation_eq_ok hp
        apply mutated_persistStaged hws.symm hg
        rcases validateMutationBinding_eq_ok hv with he | ⟨-,hb⟩ |
          ⟨live,receipt,hl,-⟩
        · exact .inl he
        · exact .inr hb
        · cases hl
      · next live grants hp =>
        obtain ⟨hws,hv,hg⟩ := prepareMutation_eq_ok hp
        apply mutated_persistBound hws.symm hcm hg
        rcases validateMutationBinding_eq_ok hv with he | ⟨hn,-⟩ |
          ⟨other,receipt,ho,hr,hb⟩
        · exact .inl he
        · cases hn
        · cases ho
          exact .inr ⟨receipt,hr,hb⟩

theorem bound_bindCreatedWorkspace (hws : st.workspace = some live) :
    Bound st live (bindCreatedWorkspace root n sha st live nonce rf rcf).1 := by
  unfold bindCreatedWorkspace
  split
  · exact .same
  · exact .same
  · next rec hl =>
    have hr := loadScoped_eq_ok hl
    by_cases he : rec.grants.isEmpty = true
    · rw [if_pos he]
      exact .same
    · rw [if_neg he]
      cases hn : live.explicitName with
      | false => exact .same
      | true =>
        cases hb : rec.binding with
        | bound rcpt => exact .same
        | staged =>
          exact ensureReceipt_persistChange hws .same
            (fun rcpt hno hd => .received hr.symm hb hn hno hd)
            fun rcpt _ hd => @Bound.bound _ _ rec _ hr.symm hb hn hd

theorem stepped_of_step {s t : System} {e : Event} (h : s.step root n sha frs e = some t) :
    Stepped root n frs sha s e t := by
  cases e with
  | mutate command nonce rf rcf =>
    cases h
    exact .mutated rfl mutated_mutateCredentials
  | create device inode createdAt repositorySource explicitName =>
    simp only [System.step] at h
    split at h
    · cases h
    · next hg =>
      cases h
      rw [Bool.or_eq_true,not_or,Bool.not_eq_true,Option.isSome_eq_false_iff,
        Option.isNone_iff_eq_none,List.any_eq_true] at hg
      exact .created hg.1 rfl rfl rfl fun w hm heq => hg.2 ⟨w,hm,beq_iff_eq.mpr heq⟩
  | bind nonce rf rcf =>
    simp only [System.step] at h
    split at h
    · next live hw =>
      split at h
      · cases h
      · next hn =>
        cases h
        exact .bound hw (Bool.not_eq_true _ ▸ hn) (bound_bindCreatedWorkspace hw)
    · cases h
  | remove =>
    cases h
    exact .vacated (List.sublist_append_right _ _)
  | moveAway =>
    simp only [System.step] at h
    split at h
    · next live hw =>
      cases h
      exact .vacated (by simp [hw])
    · cases h
  | moveBack i =>
    simp only [System.step] at h
    split at h
    · next away hw hi =>
      cases h
      exact .returned hw hi
    · cases h
  | lease user home generation =>
    simp only [System.step] at h
    split at h
    · split at h
      · next lease hl =>
        cases h
        exact .leased hl
      · cases h
    · cases h
  | supervise i =>
    simp only [System.step] at h
    split at h
    · next lease hl =>
      cases h
      exact .supervised (List.mem_of_getElem? hl)
    · cases h
  | reconcile supervisor i =>
    simp only [System.step] at h
    split at h
    · next policy rec hp hr =>
      split at h
      · next next hn =>
        cases h
        exact .reconciled (List.mem_of_getElem? hr) hn
      · cases h
    · cases h

end inversion
end Cdenv.CredentialStore
