import Cdenv.CredentialStoreSteps

/-!
# Revisions of stored consent

Every write of a record, by whatever command and whether or not it is reported as a
success, takes the revision after the one it replaces. So a revision stands for one
record, and a supervisor that has followed the records up to any of them accepts the
latest.
-/
namespace Cdenv.CredentialStore
open TextScan Fallible Identity Credentials CredentialBackend List

section records
variable {root : Installation} {name : WorkspaceName}
variable {fromRepositorySource : Text → Option HttpsOrigin}
variable {grants : CredentialGrants} {cmd : CredentialsCommand} {st : Store}

/-- What no capability's removal breaks, disabling does not break. -/
theorem disableAll_induction {P : CredentialGrants → Prop}
    {caps : List CredentialCapability} (hn : P .none)
    (hd : ∀ grants cap, P grants → P (grants.disable cap)) (h : P grants) :
    P (disableAll grants caps) := by
  unfold disableAll
  split_ifs
  · exact hn
  · exact foldlRecOn caps _ h fun _ h cap _ => hd _ cap h

theorem bounded_disableAll (h : grants.bounded = true) (caps : List CredentialCapability) :
    (disableAll grants caps).bounded = true :=
  disableAll_induction (P := fun grants => grants.bounded = true) rfl
    (fun _ cap h => CredentialGrants.bounded_disable h cap) h

theorem bounded_changeGrants {changed : CredentialGrants} {ws : Option Workspace}
    (hg : grants.bounded = true)
    (h : changeGrants fromRepositorySource grants ws cmd = .ok changed) :
    changed.bounded = true := by
  unfold changeGrants at h
  split at h
  · unfold enable at h
    split at h
    · split_ifs at h
      · exact (GrantOperation.effect_of_committed (.enableHttps _) h).bounded hg
      · obtain ⟨o,-,hc⟩ := bind_eq_ok.mp h
        exact (GrantOperation.effect_of_committed (.enableHttps _) hc).bounded hg
    all_goals
      cases h
      exact hg
  · exact (GrantOperation.effect_of_committed (.adjustOrigins _ true) h).bounded hg
  · exact (GrantOperation.effect_of_committed (.adjustOrigins _ false) h).bounded hg
  · cases h
    exact bounded_disableAll hg _

/-- A record that may be written over the old one. -/
structure Succeeds (old : Option PermissionRecord) (new : PermissionRecord) : Prop where
  revision : new.revision = old.elim 0 (·.revision)+1
  bounded : (∀ record, old = some record → record.grants.bounded = true) → new.grants.bounded = true

theorem currentRecord_revision :
    (currentRecord root name st).revision = st.record.elim 0 (·.revision) := by
  unfold currentRecord
  cases st.record with
  | none | some record => rfl

theorem currentRecord_bounded (h : ∀ rec, st.record = some rec → rec.grants.bounded = true) :
    (currentRecord root name st).grants.bounded = true := by
  unfold currentRecord
  cases hr : st.record with
  | none => rfl
  | some rec => exact h rec hr

theorem Mutated.record {next : Store} (h : Mutated root name fromRepositorySource st cmd next) :
    next.record = st.record ∨ ∃ new, next.record = some new ∧ Succeeds st.record new := by
  cases h with
  | same | received hw hre hd he => exact .inl rfl
  | disabled hr hg hbi =>
    refine .inr ⟨_,rfl,hr.trans (by rw [currentRecord_revision]),?_⟩
    intro hb
    rw [hg]
    exact bounded_disableAll (currentRecord_bounded hb) _
  | staged hw hr hg hf hbi =>
    refine .inr ⟨_,rfl,hr.trans (by rw [currentRecord_revision]),?_⟩
    intro hb
    exact bounded_changeGrants (currentRecord_bounded hb) hg
  | bound hw hr hg hf hbi hd hc =>
    refine .inr ⟨_,rfl,hr.trans (by rw [currentRecord_revision]),?_⟩
    intro hb
    exact bounded_changeGrants (currentRecord_bounded hb) hg

theorem Bound.record {next : Store} {live : Workspace} (h : Bound st live next) :
    next.record = st.record ∨ ∃ new, next.record = some new ∧ Succeeds st.record new := by
  cases h with
  | same | received hr hb he hre hd => exact .inl rfl
  | bound hr hb he hd =>
    refine .inr ⟨_,rfl,?_,?_⟩
    · rw [hr]
      rfl
    · intro hbo
      have hg := hbo _ hr
      exact hg

end records

/-- Revision and grants are those of a record that was written. -/
def Recorded (history : List PermissionRecord) (revision : ℕ) (grants : CredentialGrants) : Prop :=
  ∃ record ∈ history, revision = record.revision ∧ grants = record.grants

variable {history : List PermissionRecord}

theorem Recorded.later {extra : List PermissionRecord} {rev : ℕ} {grants : CredentialGrants}
    (h : Recorded history rev grants) :
    Recorded (history++extra) rev grants := by
  obtain ⟨rec,hm,hr,hg⟩ := h
  exact ⟨rec,mem_append_left _ hm,hr,hg⟩

structure Revised (s : System) : Prop where
  ordered : s.history.Pairwise fun r r' => r.revision < r'.revision
  latest : s.store.record = s.history.getLast?
  bounded : ∀ record ∈ s.history, record.grants.bounded = true
  positive : ∀ record ∈ s.history, record.revision ≠ 0
  leases : ∀ lease ∈ s.leases, Recorded s.history lease.grantRevision lease.grants
  supervisors : ∀ policy ∈ s.supervisors, Recorded s.history policy.revision policy.grants

theorem revision_le_getLast {rec l : PermissionRecord}
    (h : history.Pairwise fun r r' => r.revision < r'.revision)
    (hl : history.getLast? = some l) (hm : rec ∈ history) :
    rec.revision ≤ l.revision := by
  obtain ⟨init,rfl⟩ := getLast?_eq_some_iff.mp hl
  rcases mem_append.mp hm with hm | hm
  · have hb := (pairwise_append.mp h).2.2 rec hm l (mem_singleton_self l)
    exact Nat.le_of_lt hb
  · rw [mem_singleton.mp hm]

section histories
variable {root : Installation} {name : WorkspaceName} {sha256Hex : Text → Text}
variable {fromRepositorySource : Text → Option HttpsOrigin} {s t : System}

theorem revised_start : Revised .start := by
  refine ⟨List.Pairwise.nil,rfl,?_,?_,?_,?_⟩ <;> exact fun _ => nofun

theorem Revised.below (h : Revised s) {new rec : PermissionRecord}
    (hn : Succeeds s.store.record new) (hm : rec ∈ s.history) :
    rec.revision < new.revision := by
  cases hl : s.history.getLast? with
  | none =>
    rw [getLast?_eq_none_iff.mp hl] at hm
    cases hm
  | some l =>
    have hle := revision_le_getLast h.ordered hl hm
    have hr := hn.revision
    rw [h.latest,hl,Option.elim_some] at hr
    omega

theorem Revised.note (h : Revised s) {st : Store} {consents : List Consent}
    (hr : st.record = s.store.record ∨ ∃ new, st.record = some new ∧ Succeeds s.store.record new) :
    Revised (s.note st consents) := by
  unfold System.note
  split_ifs with hs
  · exact ⟨h.ordered,hs.trans h.latest,h.bounded,h.positive,h.leases,h.supervisors⟩
  · rcases hr with hr | ⟨new,hr,hn⟩
    · exact (hs hr).elim
    · rw [hr,Option.toList_some]
      refine ⟨?_,?_,?_,?_,?_,?_⟩
      · rw [pairwise_append]
        refine ⟨h.ordered,pairwise_singleton _ _,?_⟩
        intro rec hm b hot
        rw [mem_singleton.mp hot]
        exact h.below hn hm
      · rw [getLast?_concat]
        exact hr
      · refine forall_mem_append.mpr ⟨h.bounded,forall_mem_singleton.mpr (hn.bounded ?_)⟩
        intro old ho
        rw [h.latest] at ho
        exact h.bounded old (mem_of_getLast? ho)
      · refine forall_mem_append.mpr ⟨h.positive,forall_mem_singleton.mpr ?_⟩
        rw [hn.revision]
        exact Nat.succ_ne_zero _
      · intro ls hm
        exact (h.leases ls hm).later
      · intro policy hm
        exact (h.supervisors policy hm).later

theorem credentialSupervisorLease_eq_ok {st : Store} {live : Workspace}
    {us : CredentialUserIdentity} {home : Text} {gen : GenerationId}
    {ls : SupervisorCredentialLease}
    (h : credentialSupervisorLease root name sha256Hex st live us home gen = .ok (some ls)) :
    ∃ rec, st.record = some rec ∧ rec.grants.isEmpty = false ∧
      boundMatches sha256Hex rec live = true ∧ ls.grantRevision = rec.revision ∧
      ls.grants = rec.grants := by
  obtain ⟨loaded,hl,h⟩ := bind_eq_ok.mp h
  cases loaded with
  | none => cases h
  | some rec =>
    dsimp only at h
    split_ifs at h with he
    · cases h
    · rw [Bool.not_eq_true] at he
      obtain ⟨⟨⟩,hb,h⟩ := bind_eq_ok.mp h
      rw [require_eq_ok,Bool.and_eq_true,Bool.and_eq_true] at hb
      refine ⟨rec,(loadScoped_eq_ok hl).symm,he,hb.1.1,?_⟩
      split at h
      · cases h
      · cases h
        exact ⟨rfl,rfl⟩

theorem Revised.step (h : Revised s) {e : Event}
    (ht : s.step root name sha256Hex fromRepositorySource e = some t) : Revised t := by
  cases stepped_of_step ht with
  | mutated _ hm => exact h.note hm.record
  | bound _ _ hb => exact h.note hb.record
  | created | vacated | returned =>
    exact ⟨h.ordered,h.latest,h.bounded,h.positive,h.leases,h.supervisors⟩
  | leased hl =>
    obtain ⟨rec,hr,-,-,hrv,hg⟩ := credentialSupervisorLease_eq_ok hl
    rw [h.latest] at hr
    exact ⟨h.ordered,h.latest,h.bounded,h.positive,forall_mem_append.mpr ⟨h.leases,
      forall_mem_singleton.mpr ⟨rec,mem_of_getLast? hr,hrv,hg⟩⟩,h.supervisors⟩
  | supervised hl =>
    exact ⟨h.ordered,h.latest,h.bounded,h.positive,h.leases,forall_mem_append.mpr
      ⟨h.supervisors,forall_mem_singleton.mpr (h.leases _ hl)⟩⟩
  | reconciled hr hn =>
    refine ⟨h.ordered,h.latest,h.bounded,h.positive,h.leases,?_⟩
    intro b hm
    rcases mem_or_eq_of_mem_set hm with hm | rfl
    · exact h.supervisors b hm
    · have hre := LiveCredentialPolicy.reconciled_of_eq_ok hn
      exact ⟨_,hr,hre.revision_eq,hre.grants_eq⟩

theorem Revised.eq_of_revision (h : Revised s) {r r' : PermissionRecord} (hr : r ∈ s.history)
    (hr' : r' ∈ s.history) (heq : r.revision = r'.revision) : r = r' := by
  by_contra hne
  have hdi := h.ordered.imp fun hlt => Nat.ne_of_lt hlt
  have : Std.Symm fun r r' : PermissionRecord => r.revision ≠ r'.revision := ⟨fun _ _ hd => hd.symm⟩
  exact hdi.forall hr hr' hne heq

/-- The stored record is the last that was written, equal revisions mean equal grants,
revisions never decrease, and every supervisor accepts the stored record. -/
structure Accepted (s : System) : Prop where
  latest : s.store.record = s.history.getLast?
  grants : ∀ r ∈ s.history, ∀ r' ∈ s.history, r.revision = r'.revision → r.grants = r'.grants
  revisions : s.history.Pairwise fun r r' => r.revision ≤ r'.revision
  accepted : ∀ record, s.store.record = some record → ∀ policy ∈ s.supervisors,
    ∃ next, policy.reconcile record.revision record.grants = .ok next

/-- This holds after any history of commands, creations, removals and crashes. -/
theorem accepted_run {events : List Event}
    (h : EventRun.run (System.step root name sha256Hex fromRepositorySource) .start events =
      some s) : Accepted s := by
  have hre := EventRun.run_invariant (fun _ _ _ hs ht => hs.step ht) revised_start h
  refine ⟨hre.latest,?_,hre.ordered.imp fun hlt => Nat.le_of_lt hlt,?_⟩
  · intro r hr r' hr' heq
    rw [hre.eq_of_revision hr hr' heq]
  · intro rec hrc policy hp
    rw [hre.latest] at hrc
    have hm := mem_of_getLast? hrc
    obtain ⟨earlier,he,hrv,hg⟩ := hre.supervisors policy hp
    apply LiveCredentialPolicy.exists_reconcile_eq_ok
    · exact CredentialGrants.validate_eq_ok.mpr (hre.bounded rec hm)
    · exact hre.positive rec hm
    · rw [hrv]
      exact revision_le_getLast hre.ordered hrc he
    · intro heq
      rw [hrv] at heq
      rw [hg,hre.eq_of_revision hm he heq]

end histories

/-! The witness: a supervisor is started from the first record, and the second one is
written although its write is reported as failed. -/

def sampleRoot : Installation := ⟨sampleLease.installation,1,2⟩

def sampleNonce : Nonce := ⟨List.replicate 64 'a',by decide⟩

def failedWrite : List Event :=
  [.create 1 7 "2026-01-01T00:00:00Z" "https://example.com/a.git" true,
    .mutate (.enable .gitIdentity) sampleNonce none none,
    .lease sampleLease.user "/root" sampleLease.generation,.supervise 0,
    .mutate (.enable (.sshAgent none)) sampleNonce none (some .syncParent)]

theorem accepted_run_failedWrite : ∃ s,
    EventRun.run (System.step sampleRoot sampleLease.workspace id (fun _ => none)) .start
      failedWrite = some s ∧ s.history.length = 2 ∧ s.supervisors.length = 1 ∧ Accepted s :=
  exists_some_and (P := fun s => s.history.length = 2 ∧ s.supervisors.length = 1)
    (by decide +kernel) fun _ hs hf => ⟨hf.1,hf.2,accepted_run hs⟩

end Cdenv.CredentialStore
