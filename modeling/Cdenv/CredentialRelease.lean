import Cdenv.HostBrokerSteps

/-!
# Release of credential results

A credential result reaches the wire only if its lookup's origin was granted throughout:
from the moment the lookup captured the authorization epoch to the moment the epoch was
compared again before the write. The allowlist is read in between and the two epochs are
equal, and equal epochs exclude any change of the allowlist between them, also one that
was undone.
-/
namespace Cdenv.CredentialRelease
open TextScan BrokerProtocol Credentials CredentialBackend HostBroker Option

variable (requestOrigin : Bytes → Option HttpsOrigin)

section moments
variable (versions : List LiveCredentialPolicy)

def AllowedAt (moment : ℕ) (origin : HttpsOrigin) : Prop :=
  ∃ policy, versions[moment]? = some policy ∧ policy.grants.allows origin = true

def CapturedAt (moment epoch : ℕ) : Prop :=
  ∃ policy, versions[moment]? = some policy ∧ policy.httpsEpoch = epoch

/-- The request's origin was allowed at some moment since the capture. -/
def Earned (request : BrokerFrame) (captured : ℕ) (origin : HttpsOrigin) : Prop :=
  requestOrigin request.payload = some origin ∧
    ∃ moment, captured ≤ moment ∧ AllowedAt versions moment origin

def LookupSound (lookup : Lookup) : Prop :=
  CapturedAt versions lookup.captured lookup.epoch ∧
    match lookup.phase with
    | .pending origin => Earned requestOrigin versions lookup.request lookup.captured origin
    | .answered _ => ∃ origin, Earned requestOrigin versions lookup.request lookup.captured origin
    | _ => True

/-- A queued result carries the epoch its lookup captured. -/
def QueuedSound (queued : QueuedFrame) : Prop :=
  queued.frame.kind = .credentialResult → ∃ request captured origin epoch,
    queued.cause = .lookup request captured ∧ request.streamId = queued.frame.streamId ∧
      queued.authorization = some (.credentialLookup, epoch) ∧
      CapturedAt versions captured epoch ∧ Earned requestOrigin versions request captured origin

/-- A written result's origin was allowed from the capture to the check. -/
def WrittenSound (written : Written) : Prop :=
  written.frame.kind = .credentialResult → ∃ request captured origin,
    written.cause = .lookup request captured ∧ request.streamId = written.frame.streamId ∧
      requestOrigin request.payload = some origin ∧ captured ≤ written.checked ∧
      ∀ moment, captured ≤ moment → moment ≤ written.checked → AllowedAt versions moment origin

def LoopSound : HostBroker.Loop → Prop
  | .admitting request => request.kind = .credentialLookup ∨ request.kind = .identityRequest
  | .checking queued checked =>
    WrittenSound requestOrigin versions ⟨queued.frame,queued.cause,checked⟩
  | .writing written _ => WrittenSound requestOrigin versions written
  | _ => True

end moments

structure Sound (s : State) : Prop where
  chain : s.versions.IsChain
    (StampedLog.Follows (fun p => p.grants.gitHttps) LiveCredentialPolicy.httpsEpoch)
  lookups : ∀ lookup, Task.lookup lookup ∈ s.tasks → LookupSound requestOrigin s.versions lookup
  queued : ∀ queued ∈ s.outbox.items, QueuedSound requestOrigin s.versions queued
  loop : LoopSound requestOrigin s.versions s.loop
  written : ∀ written ∈ s.written, WrittenSound requestOrigin s.versions written

theorem versions_now (s : State) : s.versions[s.now]? = some s.backend.policy := by
  simp [State.versions,State.now]

section later
variable {requestOrigin} {vers extra : List LiveCredentialPolicy}
variable {policy : LiveCredentialPolicy} {mo : ℕ}

theorem getElem?_later (h : vers[mo]? = some policy) : (vers++extra)[mo]? = some policy := by
  obtain ⟨hlt,-⟩ := List.getElem?_eq_some_iff.mp h
  rw [List.getElem?_append_left hlt]
  exact h

variable {origin : HttpsOrigin}

theorem AllowedAt.later (h : AllowedAt vers mo origin) : AllowedAt (vers++extra) mo origin := by
  obtain ⟨policy,hp,ha⟩ := h
  exact ⟨policy,getElem?_later hp,ha⟩

theorem CapturedAt.later {epoch : ℕ} (h : CapturedAt vers mo epoch) :
    CapturedAt (vers++extra) mo epoch := by
  obtain ⟨policy,hp,he⟩ := h
  exact ⟨policy,getElem?_later hp,he⟩

variable {req : BrokerFrame}

theorem Earned.later {cap : ℕ} (h : Earned requestOrigin vers req cap origin) :
    Earned requestOrigin (vers++extra) req cap origin := by
  obtain ⟨hr,mo,hle,ha⟩ := h
  exact ⟨hr,mo,hle,ha.later⟩

variable {lookup : Lookup}

theorem LookupSound.later (h : LookupSound requestOrigin vers lookup) :
    LookupSound requestOrigin (vers++extra) lookup := by
  refine ⟨h.1.later,?_⟩
  have hph := h.2
  cases hp : lookup.phase with
  | pending origin =>
    rw [hp] at hph
    exact hph.later
  | answered pay =>
    rw [hp] at hph
    obtain ⟨origin,he⟩ := hph
    exact ⟨origin,he.later⟩
  | _ => trivial

theorem QueuedSound.later {queued : QueuedFrame} (h : QueuedSound requestOrigin vers queued) :
    QueuedSound requestOrigin (vers++extra) queued := by
  intro hk
  obtain ⟨req,cap,origin,ep,hca,hid,ha,hc,he⟩ := h hk
  exact ⟨req,cap,origin,ep,hca,hid,ha,hc.later,he.later⟩

theorem WrittenSound.later {written : Written} (h : WrittenSound requestOrigin vers written) :
    WrittenSound requestOrigin (vers++extra) written := by
  intro hk
  obtain ⟨req,cap,origin,hc,hid,hr,hle,ha⟩ := h hk
  refine ⟨req,cap,origin,hc,hid,hr,hle,?_⟩
  intro mo hl hh
  exact (ha mo hl hh).later

theorem LoopSound.later {loop : HostBroker.Loop} (h : LoopSound requestOrigin vers loop) :
    LoopSound requestOrigin (vers++extra) loop := by
  cases loop with
  | admitting req => exact h
  | checking queued checked | writing written held => exact WrittenSound.later h
  | _ => trivial

end later

variable {vers : List LiveCredentialPolicy}

/-- Equal epochs at the capture and now: the origin is allowed at every moment between. -/
theorem written_of_epoch {cap now ep : ℕ} (hc : vers.IsChain
      (StampedLog.Follows (fun p => p.grants.gitHttps) LiveCredentialPolicy.httpsEpoch))
    (hle : vers.length = now+1) (hn : vers[now]? = some policy)
    (hep : policy.httpsEpoch = ep) (hca : CapturedAt vers cap ep)
    (hea : Earned requestOrigin vers req cap origin) :
    cap ≤ now ∧ ∀ mo, cap ≤ mo → mo ≤ now → AllowedAt vers mo origin := by
  obtain ⟨fst,hf,hfi⟩ := hca
  obtain ⟨-,seen,hse,reader,hr,ha⟩ := hea
  have hsn := (List.getElem?_eq_some_iff.mp hr).1
  have he := hfi.trans hep.symm
  have ho := StampedLog.value_eq_between hc hse (by omega) hf hn hr he
  refine ⟨by omega,?_⟩
  intro mo hl hh
  obtain ⟨between,hb⟩ : ∃ p, vers[mo]? = some p := ⟨_,List.getElem?_eq_getElem (by omega)⟩
  have hs := StampedLog.value_eq_between hc hl hh hf hn hb he
  refine ⟨between,hb,?_⟩
  unfold CredentialGrants.allows at ha ⊢
  rw [hs,← ho]
  exact ha

section step
variable {requestOrigin} {s : State}

theorem sound_start (be : LiveCredentialBackend) : Sound requestOrigin (State.start be) := by
  refine ⟨List.isChain_singleton _,fun _ => nofun,fun _ => nofun,trivial,fun _ => nofun⟩

theorem queuedSound_of_kind {queued : QueuedFrame} (h : queued.frame.kind ≠ .credentialResult) :
    QueuedSound requestOrigin vers queued :=
  fun hk => (h hk).elim

variable {ident : CredentialLeaseIdentity}

theorem allowedAt_now (h : s.backend.policy.grants.allows origin = true) :
    AllowedAt s.versions s.now origin :=
  ⟨s.backend.policy,versions_now s,h⟩

theorem captured_le_now (h : LookupSound requestOrigin s.versions lookup) :
    lookup.captured ≤ s.now := by
  obtain ⟨policy,hp,-⟩ := h.1
  have hlt := (List.getElem?_eq_some_iff.mp hp).1
  simp only [State.versions,List.length_append,List.length_singleton] at hlt
  unfold State.now
  omega

variable {lookup next : Lookup} {queued : Option QueuedFrame}

theorem respond_sound {k : BrokerFrameKind} {pay : Bytes}
    {auth : Option (BrokerFrameKind × ℕ)} {c : Cause}
    (h : LookupSound requestOrigin vers lookup)
    (hq : ∀ f, BrokerFrame.new k lookup.request.streamId pay = .ok f →
      QueuedSound requestOrigin vers ⟨f,auth,c⟩)
    (hr : lookup.respond k pay auth c = (next, queued)) :
    LookupSound requestOrigin vers next ∧
      ∀ item, queued = some item → QueuedSound requestOrigin vers item := by
  unfold Lookup.respond at hr
  split at hr
  · next f hf =>
    cases hr
    refine ⟨⟨h.1,trivial⟩,?_⟩
    intro item hi
    cases hi
    exact hq f hf
  · cases hr
    exact ⟨⟨h.1,trivial⟩,fun _ hi => nomatch hi⟩

theorem refuse_sound (h : LookupSound requestOrigin vers lookup)
    (hr : lookup.refuse = (next, queued)) :
    LookupSound requestOrigin vers next ∧
      ∀ item, queued = some item → QueuedSound requestOrigin vers item := by
  refine respond_sound h (fun f hf => queuedSound_of_kind ?_) hr
  rw [(BrokerFrame.new_eq_ok.mp hf).1]
  decide

/-- Every step of a lookup keeps it sound and queues only what is. -/
theorem react_sound {e : LookupEvent} (h : LookupSound requestOrigin s.versions lookup)
    (hr : lookup.react requestOrigin ident s.backend e = some (next, queued)) :
    LookupSound requestOrigin s.versions next ∧
      ∀ item, queued = some item → QueuedSound requestOrigin s.versions item := by
  have hph := h.2
  have hn := captured_le_now h
  unfold Lookup.react at hr
  split at hr
  · split at hr
    · next origin ho =>
      split_ifs at hr with ha
      · cases hr
        exact ⟨⟨h.1,ho,s.now,hn,allowedAt_now ha⟩,fun _ hi => nomatch hi⟩
      · exact refuse_sound h (some.inj hr)
    · exact refuse_sound h (some.inj hr)
  · next origin pay hp =>
    rw [hp] at hph
    split_ifs at hr with ha
    · cases hr
      exact ⟨⟨h.1,origin,hph⟩,fun _ hi => nomatch hi⟩
    · exact refuse_sound h (some.inj hr)
  · exact refuse_sound h (some.inj hr)
  · next pay hp =>
    rw [hp] at hph
    obtain ⟨origin,he⟩ := hph
    split_ifs at hr
    · refine respond_sound h (fun f hf _ => ?_) (some.inj hr)
      have hid := (BrokerFrame.new_eq_ok.mp hf).2.1
      exact ⟨lookup.request,lookup.captured,origin,lookup.epoch,rfl,hid.symm,rfl,h.1, he⟩
    · exact refuse_sound h (some.inj hr)
  · exact refuse_sound h (some.inj hr)
  · exact refuse_sound h (some.inj hr)
  · split_ifs at hr
    exact refuse_sound h (some.inj hr)
  · split_ifs at hr
    exact refuse_sound h (some.inj hr)
  · cases hr

variable {e : Event}

section

variable (h : Sound requestOrigin s)
include h

theorem advances_sound (ha : Advances requestOrigin ident s e (.lookup lookup)) :
    LookupSound requestOrigin s.versions lookup := by
  cases ha with
  | kept hm => exact h.lookups lookup hm
  | lookupSpawned hlo hk =>
    have had := h.loop
    rw [hlo] at had
    rcases had with hl | hi
    · refine ⟨⟨s.backend.policy,versions_now s,?_⟩,trivial⟩
      rw [hl]
      rfl
    · exact (hk hi).elim
  | lookupReacted hm hr => exact (react_sound (h.lookups _ hm) hr).1

theorem queues_sound {queued : QueuedFrame} (hq : Queues requestOrigin ident s e queued) :
    QueuedSound requestOrigin s.versions queued := by
  cases hq with
  | lookup hm hr => exact (react_sound (h.lookups _ hm) hr).2 queued rfl
  | relay hm hr =>
    apply queuedSound_of_kind
    rcases ((Relay.keeps_react hr).queued queued rfl).2 with hcl | hd
    · rw [hcl.2]
      decide
    · rw [hd.2]
      decide
  | error hc hk => exact queuedSound_of_kind (by rw [hk]; decide)
  | healthAck he hf hc hk => exact queuedSound_of_kind (by rw [hk]; decide)
  | identityResult hl hc hk => exact queuedSound_of_kind (by rw [hk]; decide)

/-- Equal epochs let a frame through to the second half of the check. -/
theorem checking_sound {queued : QueuedFrame} {op : BrokerFrameKind} {ep : ℕ}
    (hq : QueuedSound requestOrigin s.versions queued)
    (hau : queued.authorization = some (op, ep))
    (hep : s.backend.policy.authorizationEpoch op = ep) :
    WrittenSound requestOrigin s.versions ⟨queued.frame,queued.cause,s.now⟩ := by
  intro hk
  obtain ⟨req,cap,origin,gd,hca,hid,hs,hc,he⟩ := hq hk
  rw [hau] at hs
  cases hs
  have hl : s.versions.length = s.now+1 := by simp [State.versions,State.now]
  obtain ⟨hle,ha⟩ := written_of_epoch requestOrigin h.chain hl (versions_now s) hep hc he
  exact ⟨req,cap,origin,hca,hid,he.1,hle,ha⟩

theorem loopFrom_sound {loop : HostBroker.Loop} (hl : LoopFrom s e loop) :
    LoopSound requestOrigin s.versions loop := by
  have hlo := h.loop
  cases hl with
  | kept => exact hlo
  | plain hp => cases loop <;> trivial
  | admitted he hk => exact hk
  | connecting he hk => trivial
  | identifying had hk => trivial
  | routing hm hi he hre => trivial
  | checking hm ha hep => exact checking_sound h (h.queued _ hm) ha hep
  | passed hm ha =>
    intro hk
    obtain ⟨_,_,_,_,_,_,hs,_⟩ := h.queued _ hm hk
    rw [ha] at hs
    cases hs
  | released hc =>
    rw [hc] at hlo
    exact hlo
  | denied hca hk =>
    intro hr
    rw [hr] at hk
    rcases hk with hk | hk <;> cases hk

end

theorem Sound.step (h : Sound requestOrigin s) {t : State} {e : Event}
    (he : Effects requestOrigin ident s e t) : Sound requestOrigin t := by
  obtain ⟨extra,het,hc⟩ : ∃ extra, t.versions = s.versions++extra ∧ t.versions.IsChain
        (StampedLog.Follows (fun p => p.grants.gitHttps) LiveCredentialPolicy.httpsEpoch) := by
    rcases he.versions with hs | ⟨rev,gs,policy,-,hr,hn⟩
    · exact ⟨[],by simpa using hs,hs ▸ h.chain⟩
    · refine ⟨[policy],hn,hn ▸ StampedLog.isChain_snoc h.chain ?_
        (LiveCredentialPolicy.reconcile_follows_https hr)⟩
      simp [State.versions]
  refine ⟨hc,?_,?_,?_,?_⟩
  · intro lookup hm
    obtain ⟨bef,ha,hre⟩ := he.tasks _ hm
    rw [het]
    cases hre with
    | same => exact (advances_sound h ha).later
    | lookup old => exact LookupSound.later ⟨(advances_sound h ha).1,trivial⟩
  · intro queued hm
    rw [het]
    rcases he.queued queued hm with hm | hq
    · exact (h.queued queued hm).later
    · exact (queues_sound h hq).later
  · rw [het]
    exact (loopFrom_sound h he.loop).later
  · intro wr hm
    rw [het]
    rcases he.mem_written hm with hm | ⟨held,hw⟩
    · exact (h.written wr hm).later
    · have hl := h.loop
      rw [hw] at hl
      exact WrittenSound.later hl

end step

/-- Whatever the interleaving, a credential result on the wire answers a lookup whose
origin was in the allowlist at every moment from the capture of its epoch to the check
before the write. The check makes two reads; the moment is that of the first, which
compares the captured epoch, and the second asks only whether HTTPS is still enabled. -/
theorem credentialResult_allowed (identity : CredentialLeaseIdentity)
    {backend : LiveCredentialBackend} {events : List Event} {s : State}
    (h : EventRun.run (State.step requestOrigin identity) (State.start backend) events = some s)
    {written : Written} (hwritten : written ∈ s.written)
    (hkind : written.frame.kind = .credentialResult) :
    ∃ request captured origin, written.cause = .lookup request captured ∧
      request.streamId = written.frame.streamId ∧
      requestOrigin request.payload = some origin ∧ captured ≤ written.checked ∧
      ∀ moment, captured ≤ moment → moment ≤ written.checked →
        ∃ policy, s.versions[moment]? = some policy ∧ policy.grants.allows origin = true := by
  have hso :=
    EventRun.run_invariant (fun _ _ _ hs ht => hs.step (effects_step ht)) (sound_start backend) h
  exact hso.written written hwritten hkind

def sampleBackend : LiveCredentialBackend :=
  .new sampleLease
    ⟨some (OrderedSet.extend OrderedMap.empty ["https://example.com:443"]),none,false⟩ none

def sampleRequest : Bytes := utf8 "protocol=https\nhost=example.com\n\n"

def sampleOrigin (payload : Bytes) : Option Text :=
  if payload = sampleRequest then some "https://example.com:443" else none

/-- The identity is granted between the capture and the check; the origin stays granted. -/
theorem credentialResult_allowed_reconciled : ∃ s, EventRun.run
        (State.step sampleOrigin sampleLease) (State.start sampleBackend)
        [.loop (.receive ⟨.credentialLookup,2,sampleRequest,by decide,by decide⟩),.loop .capture,
          .lookup 0 .poll,.reconcile 2 { sampleBackend.policy.grants with gitIdentity := true },
          .lookup 0 (.returned (some (utf8 "password=secret\n"))),.lookup 0 .authorize,
          .loop .dequeue,.loop .recheck,.loop .wrote] = some s ∧ s.versions.length = 2 ∧
      ∃ written ∈ s.written, written.frame.kind = .credentialResult ∧
        ∃ request captured origin, written.cause = .lookup request captured ∧
          request.streamId = written.frame.streamId ∧
          sampleOrigin request.payload = some origin ∧ captured ≤ written.checked ∧
          ∀ moment, captured ≤ moment → moment ≤ written.checked →
            ∃ policy, s.versions[moment]? = some policy ∧ policy.grants.allows origin = true := by
  refine Fallible.exists_some_and (P := fun s => s.versions.length = 2 ∧ ∃ written ∈ s.written,
    written.frame.kind = .credentialResult) (by decide +kernel) fun s hs ⟨hl,written,hw,hk⟩ => ?_
  exact ⟨hl,written,hw,hk,credentialResult_allowed _ sampleLease hs hw hk⟩

end Cdenv.CredentialRelease
