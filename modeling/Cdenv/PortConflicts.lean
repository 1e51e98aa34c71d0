import Cdenv.ContainerRecord
import Cdenv.PortPlanning

/-!
# What two planned ports can claim

A fixed publication claims host addresses and host ports for a protocol. The planner compares
bindings for equality instead, so it misses a wildcard beside one of the addresses that it covers,
and nothing else. Forwards never ask for one local port twice.
-/
namespace Cdenv.PortPlanning
open Fallible List

def PublicationBinding.address : PublicationBinding → Option IpAddr
  | .loopback address | .nonLoopback address => some address
  | .allInterfaces => none

def unspecified (address : IpAddr) : Bool :=
  address == .v4 [0,0,0,0] || address == .v6 (List.replicate 8 0)

/-- The unspecified address of a family stands for every address of that family, an omitted
address for every address. -/
def PublicationBinding.Covers (binding : PublicationBinding) (address : IpAddr) : Prop :=
  ∀ own ∈ binding.address, own.isIpv6 = address.isIpv6 ∧ (unspecified own ∨ own = address)

/-- A publication with fixed host ports claims a port of an address. -/
def PublicationRequest.Claims (publication : PublicationRequest) (protocol : PublicationProtocol)
    (address : IpAddr) (port : ℕ) : Prop :=
  publication.protocol = protocol ∧ publication.binding.Covers address ∧
    ∃ range ∈ publication.hostPorts, range.first.value ≤ port ∧ port ≤ range.last.value

def Apart (left right : PublicationRequest) : Prop :=
  ∀ protocol address port, ¬(left.Claims protocol address port ∧ right.Claims protocol address port)

structure ConflictFree (plan : PortPlan) : Prop where
  publications : plan.publications.Pairwise Apart
  forwards : plan.forwards.Pairwise fun a b => a.requestedLocal ≠ b.requestedLocal

/-- Two publications that differ in their addresses only, one of which is a wildcard that covers
the other. -/
def Shadowed (left right : PublicationRequest) : Prop :=
  left.protocol = right.protocol ∧
    (∃ a ∈ left.hostPorts, ∃ b ∈ right.hostPorts, a.overlaps b) ∧
    ∃ a ∈ left.binding.address, ∃ b ∈ right.binding.address,
      a.isIpv6 = b.isIpv6 ∧ a ≠ b ∧ (unspecified a ∨ unspecified b)

/-- The range is not reversed, and the binding is the one of its address. -/
structure Parsed (publication : PublicationRequest) : Prop where
  range : ∀ range ∈ publication.hostPorts, range.first.value ≤ range.last.value
  binding : ∀ address ∈ publication.binding.address, publication.binding = bindingOf address

theorem bindingOf_address {addr own : IpAddr} (h : own ∈ (bindingOf addr).address) :
    bindingOf addr = bindingOf own := by
  unfold bindingOf at h ⊢
  split_ifs at h ⊢ <;> cases h <;> simp_all

theorem parseRange_le {v : Text} {rg : PortRange} (h : parseRange v = some rg) :
    rg.first.value ≤ rg.last.value := by
  unfold parseRange at h
  dsimp only at h
  split at h
  · split_ifs at h with hle
    cases h
    exact hle
  · cases h

theorem splitEndpoint_binding {v : Text} {ep : PublicationBinding × Text × Text}
    (h : splitEndpoint v = some ep) :
    ep.1 = .allInterfaces ∨ ∃ address, ep.1 = bindingOf address := by
  unfold splitEndpoint at h
  split at h
  · simp only [Option.bind_eq_bind,Option.bind_eq_some_iff,Option.ite_none_right_eq_some,
      Option.some.injEq] at h
    obtain ⟨_,-,address,-,-,rfl⟩ := h
    exact .inr ⟨address,rfl⟩
  · split at h
    · grind
    · grind
    · grind [Option.map_eq_some_iff]
    · cases h

/-- What an application port asks for. The property is only named in errors. -/
def publicationOf (port : AppPort) : Option PublicationRequest := (planPublication port []).toOption

theorem planPublication_eq_ok {p : AppPort} {prop : Text} {publication : PublicationRequest} :
    planPublication p prop = .ok publication ↔ publicationOf p = some publication := by
  have hok (x : Except PortPlanningError PublicationRequest) :
      x.toOption = some publication ↔ x = .ok publication := by
    cases x <;> simp [Except.toOption]
  have hm (x : Except PortPlanningError PortRange) (r : Option PortRange) :
      x.map some = .ok r ↔ ∃ a, x = .ok a ∧ some a = r := map_eq_ok
  rw [publicationOf,hok]
  cases p <;> simp only [planPublication,numericPublication,parsePublication,bind_eq_ok,
    pure_eq_ok,orFail_eq_ok,require_eq_ok,ite_eq_iff,hm]

theorem parsed_publicationOf {p : AppPort} {publication : PublicationRequest}
    (h : publicationOf p = some publication) : Parsed publication := by
  have hm (x : Except PortPlanningError PortRange) (r : Option PortRange) :
      x.map some = .ok r ↔ ∃ a, x = .ok a ∧ some a = r := map_eq_ok
  rw [← @planPublication_eq_ok _ []] at h
  cases p <;> simp only [planPublication,numericPublication,parsePublication,bind_eq_ok,
    pure_eq_ok,orFail_eq_ok,require_eq_ok,ite_eq_iff,hm] at h
  · obtain ⟨p,-,rfl⟩ := h
    constructor <;> simp [PublicationBinding.address,bindingOf,IpAddr.isLoopback]
  · obtain ⟨-,-,v,-,ep,he,ps,-,h⟩ := h
    have hb (address : IpAddr) (ha : address ∈ ep.1.address) : ep.1 = bindingOf address := by
      obtain hal | ⟨own,ho⟩ := splitEndpoint_binding he
      · rw [hal] at ha
        cases ha
      · rw [ho] at ha ⊢
        exact bindingOf_address ha
    obtain ⟨-,_,⟨⟩,-,-,rfl⟩ | ⟨-,_,⟨rg,hr,rfl⟩,-,-,rfl⟩ := h
    · exact ⟨nofun,hb⟩
    · refine ⟨?_,hb⟩
      rintro _ ⟨⟩
      exact parseRange_le hr

theorem PublicationBinding.exists_covers {left right : PublicationBinding} :
    (∃ addr, left.Covers addr ∧ right.Covers addr) ↔ ∀ a ∈ left.address, ∀ b ∈ right.address,
        a.isIpv6 = b.isIpv6 ∧ (a = b ∨ unspecified a ∨ unspecified b) := by
  unfold PublicationBinding.Covers
  constructor
  · rintro ⟨addr,hl,hr⟩ a ha b hb
    grind
  · intro h
    cases hl : left.address with
    | none =>
      cases hr : right.address with
      | none => exact ⟨.v4 [],nofun,nofun⟩
      | some b => exact ⟨b,nofun,by simp⟩
    | some a =>
      cases hr : right.address with
      | none => exact ⟨a,by simp,nofun⟩
      | some b =>
        obtain ⟨hf,hw⟩ := h a hl b hr
        by_cases ha : unspecified a
        · exact ⟨b,by simp [ha,hf],by simp⟩
        · exact ⟨a,by simp,by grind⟩

variable {left right : PublicationRequest} {plan : PortPlan}

theorem PublicationRequest.exists_claims (hl : Parsed left) (hri : Parsed right) :
    (∃ pr address p, left.Claims pr address p ∧ right.Claims pr address p) ↔
      left.protocol = right.protocol ∧ (∃ a ∈ left.hostPorts, ∃ b ∈ right.hostPorts, a.overlaps b) ∧
        ∃ address, left.binding.Covers address ∧ right.binding.Covers address := by
  constructor
  · rintro ⟨_,address,p,⟨rfl,hc,a,ha,hpo⟩,hp,hc',b,hb,hpo'⟩
    refine ⟨hp.symm,⟨a,ha,b,hb,?_⟩,address,hc,hc'⟩
    simp only [PortRange.overlaps,Bool.and_eq_true,decide_eq_true_eq]
    omega
  · rintro ⟨hp,⟨a,ha,b,hb,ho⟩,address,hc,hc'⟩
    simp only [PortRange.overlaps,Bool.and_eq_true,decide_eq_true_eq] at ho
    have hr := hl.range a ha
    have hr' := hri.range b hb
    exact ⟨_,address,max a.first.value b.first.value,⟨rfl,hc,a,ha,by omega⟩,
      hp.symm,hc',b,hb,by omega⟩

/-- For the planner two bindings overlap if they have one address or one has none. -/
theorem bindingsOverlap_iff (hle : Parsed left) (hri : Parsed right)
    : bindingsOverlap left.binding right.binding = true ↔
      ∀ a ∈ left.binding.address, ∀ b ∈ right.binding.address, a = b := by
  have hl := hle.binding
  have hr := hri.binding
  generalize left.binding = l at hl ⊢
  generalize right.binding = r at hr ⊢
  cases l <;> cases r <;>
    simp_all [bindingsOverlap,PublicationBinding.addressFamily,PublicationBinding.address] <;>
    grind

theorem apart_iff (hl : Parsed left) (hr : Parsed right)
    (hfr : publicationsConflict left right = false) :
    Apart left right ↔ ¬Shadowed left right := by
  have hap : Apart left right ↔ ¬∃ pr addr port,
      left.Claims pr addr port ∧ right.Claims pr addr port := by
    simp only [Apart,not_exists]
  have ho := bindingsOverlap_iff hl hr
  rw [hap,not_iff_not,PublicationRequest.exists_claims hl hr,PublicationBinding.exists_covers]
  unfold publicationsConflict at hfr
  constructor
  · rintro ⟨hpr,⟨a,ha,b,hb,hp⟩,hs⟩
    refine ⟨hpr,⟨a,ha,b,hb,hp⟩,?_⟩
    have hn : ¬∀ a ∈ left.binding.address, ∀ b ∈ right.binding.address, a = b := by
      rw [← ho]
      simp_all
    push Not at hn
    obtain ⟨a,ha,b,hb,hne⟩ := hn
    exact ⟨a,ha,b,hb,(hs a ha b hb).1,hne,(hs a ha b hb).2.resolve_left hne⟩
  · rintro ⟨hpr,hp,a,ha,b,hb,hf,-,hw⟩
    refine ⟨hpr,hp,?_⟩
    rintro a' ha' b' hb'
    cases Option.mem_unique ha ha'
    cases Option.mem_unique hb hb'
    exact ⟨hf,.inr hw⟩

variable {next : PortPlan} {eff : EffectiveMetadata}

theorem planAppPort_eq_ok {n : ℕ} {e : AppPort × ℕ} (h : planAppPort n plan e = .ok next) :
    ∃ pub, publicationOf e.1 = some pub ∧
      next.publications = plan.publications++[pub] ∧ next.forwards = plan.forwards ∧
      ∀ old ∈ plan.publications, publicationsConflict old pub = false := by
  simp only [planAppPort,bind_eq_ok,pure_eq_ok,planPublication_eq_ok,require_eq_ok] at h
  obtain ⟨pub,hp,-,hf,rfl⟩ := h
  exact ⟨pub,hp,rfl,rfl,by simpa using hf⟩

theorem foldlM_planAppPort {n : ℕ} {es : List (AppPort × ℕ)}
    (h : es.foldlM (planAppPort n) plan = .ok next)
    (hf : plan.publications.Pairwise fun a b => publicationsConflict a b = false) :
    next.publications = plan.publications++(es.map Prod.fst).filterMap publicationOf ∧
      next.forwards = plan.forwards ∧
      next.publications.Pairwise fun a b => publicationsConflict a b = false := by
  induction es generalizing plan with
  | nil =>
    cases h
    simpa using hf
  | cons e es ih =>
    obtain ⟨between,hb,h⟩ := bind_eq_ok.mp h
    obtain ⟨pub,hpb,hpu,hfo,ha⟩ := planAppPort_eq_ok hb
    have hp := pairwise_append.mpr ⟨hf,pairwise_singleton _ pub,by simpa using ha⟩
    rw [← hpu] at hp
    obtain ⟨hn,hk,hf⟩ := ih h hp
    refine ⟨?_,hk.trans hfo,hf⟩
    rw [hn,hpu,append_assoc,map_cons, filterMap_cons_some hpb]
    rfl

theorem foldlM_planForward {compose : Bool} {es : List (ForwardPort × ℕ)}
    (h : es.foldlM (planForward eff compose) plan = .ok next)
    (hf : plan.forwards.Pairwise fun a b => a.requestedLocal ≠ b.requestedLocal) :
    next.publications = plan.publications ∧
      next.forwards.Pairwise fun a b => a.requestedLocal ≠ b.requestedLocal := by
  refine foldlM_invariant (I := fun p : PortPlan => p.publications = plan.publications ∧
    p.forwards.Pairwise fun a b => a.requestedLocal ≠ b.requestedLocal) ?_ ⟨rfl,hf⟩ h
  intro e _ bef aft hb hs
  simp only [planForward,bind_eq_ok,pure_eq_ok,orFail_eq_ok,require_eq_ok] at hs
  obtain ⟨t,-,pt,-,-,hp,rfl⟩ := hs
  refine ⟨hb.1,pairwise_append.mpr ⟨hb.2,pairwise_singleton _ _,?_⟩⟩
  simpa using hp

/-- Forwards are planned last, over the publications alone. -/
theorem planPorts_eq_ok {jsonString : Text → Text} {prof : RawProfile}
    (h : planPorts jsonString prof eff = .ok plan) :
    ∃ bef compose, eff.forwardPorts.zipIdx.foldlM (planForward eff compose) bef = .ok plan ∧
      bef.publications = prof.common.appPorts.filterMap publicationOf ∧
      bef.publications.Pairwise (fun a b => publicationsConflict a b = false) ∧
      bef.forwards = [] := by
  simp only [planPorts,bind_eq_ok] at h
  obtain ⟨pbl,hp,ch,hc,h⟩ := h
  obtain ⟨hpu,hf,hfr⟩ := foldlM_planAppPort hp .nil
  have hsa : ch.publications = pbl.publications ∧ ch.forwards = pbl.forwards := by
    refine foldlM_invariant (I := fun p : PortPlan => p.publications = pbl.publications ∧
      p.forwards = pbl.forwards) ?_ ⟨rfl,rfl⟩ hc
    intro key _ bef aft hb hs
    unfold planAttributeKey at hs
    split at hs <;> cases hs <;> exact hb
  split_ifs at h <;> exact ⟨_,_,h,by simp_all⟩

/-- A plan is free of conflicts exactly if no two application ports differ in their addresses
only, one a wildcard of the family of the other. -/
theorem planPorts_conflictFree_iff {jsonString : Text → Text} {profile : RawProfile}
    {effective : EffectiveMetadata} {plan : PortPlan}
    (h : planPorts jsonString profile effective = .ok plan) :
    ConflictFree plan ↔ profile.common.appPorts.Pairwise fun left right =>
      ∀ a, publicationOf left = some a → ∀ b, publicationOf right = some b → ¬Shadowed a b := by
  obtain ⟨bef,compose,hpl,hpu,hf,he⟩ := planPorts_eq_ok h
  obtain ⟨hk,hfo⟩ := foldlM_planForward hpl (by simp [he])
  rw [← hk] at hpu hf
  have hp : ∀ publication ∈ plan.publications, Parsed publication := by
    rw [hpu]
    intro publication hm
    obtain ⟨p,-,hpo⟩ := mem_filterMap.mp hm
    exact parsed_publicationOf hpo
  have hi : plan.publications.Pairwise Apart ↔
      plan.publications.Pairwise fun a b => ¬Shadowed a b := by
    constructor <;> refine fun hpa => (hpa.and hf).imp_of_mem ?_
    · exact fun ha hb hab => (apart_iff (hp _ ha) (hp _ hb) hab.2).mp hab.1
    · exact fun ha hb hab => (apart_iff (hp _ ha) (hp _ hb) hab.2).mpr hab.1
  rw [← pairwise_filterMap,← hpu,← hi]
  exact ⟨fun h => h.publications,fun h => ⟨h,hfo⟩⟩

def sampleProfile (appPorts : List AppPort) : RawProfile where
  common := { appPorts }
  scenario := .image ⟨"debian",{}⟩

/-- A wildcard and an address of its family with another port, and two forwards. -/
theorem planPorts_conflictFree_apart : ∃ plan,
    planPorts id (sampleProfile [.dockerArgument "0.0.0.0:80:80",
        .dockerArgument "127.0.0.1:81:81"])
      { forwardPorts := [.container 3000,.container 4000] } = .ok plan ∧
      plan.publications.length = 2 ∧ plan.forwards.length = 2 ∧ ConflictFree plan := by
  refine exists_ok_and (P := fun plan => plan.publications.length = 2 ∧ plan.forwards.length = 2)
    (by decide +kernel) fun plan hp hl => ?_
  refine ⟨hl.1,hl.2,(planPorts_conflictFree_iff hp).mpr (pairwise_pair.mpr ?_)⟩
  rintro a ⟨⟩ b ⟨⟩ ⟨-,⟨_,⟨⟩,_,⟨⟩,ho⟩,-⟩
  revert ho
  decide

/-- A wildcard and, beside it, an address of its family with the same port. -/
theorem planPorts_wildcard : ∃ plan, planPorts id (sampleProfile [.dockerArgument "0.0.0.0:80:80",
        .dockerArgument "127.0.0.1:80:81"]) {} = .ok plan ∧ ¬ConflictFree plan := by
  refine ⟨_,rfl,fun h => ?_⟩
  have ha := (pairwise_cons.mp h.publications).1 _ mem_cons_self
  refine ha .tcp (.v4 [127,0,0,1]) 80 ⟨⟨rfl,?_,_,rfl,?_⟩,rfl,?_,_,rfl,?_⟩
  · rintro _ ⟨⟩
    decide
  · decide
  · rintro _ ⟨⟩
    decide
  · decide

end Cdenv.PortPlanning
