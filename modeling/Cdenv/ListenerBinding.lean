import Cdenv.ForwardingSupervisor

/-!
# Binding the listeners of a supervisor

A forward whose port is occupied and not required takes a port of the operating system's
choice, which is any port that is free at that moment.
-/
namespace Cdenv.ListenerBinding
open Fallible PortPlanning ForwardingSupervisor List

inductive ListenerError where
  | requiredListener (port : PortNumber)
  | listener (port : PortNumber)

/-- Binds a listener; `choose` is the operating system's choice beside the ports in use. -/
def bindListener (choose : List PortNumber → Option PortNumber) (inUse : List PortNumber)
    (forward : SupervisorForward) : Except ListenerError PortNumber :=
  if forward.requestedPort ∈ inUse then
    if forward.requireLocalPort then .error (.requiredListener forward.requestedPort)
    else orFail (choose inUse) (.listener forward.requestedPort)
  else .ok forward.requestedPort

def bindListeners (choose : List PortNumber → Option PortNumber) :
    List PortNumber → List SupervisorForward → Except ListenerError (List PortNumber)
  | _, [] => return []
  | inUse, forward::rest => do
    let port ← bindListener choose inUse forward
    let ports ← bindListeners choose (port::inUse) rest
    return port::ports

/-- The choice is a free port, if there is one. -/
def ChoosesFree (choose : List PortNumber → Option PortNumber) : Prop :=
  ∀ inUse, match choose inUse with
    | some port => port ∉ inUse
    | none => ∀ port, port ∈ inUse

/-- Every forward gets a listener, and those that require their port get it. -/
def BindsRequired (choose : List PortNumber → Option PortNumber) (inUse : List PortNumber)
    (forwards : List SupervisorForward) : Prop :=
  ∃ ports, bindListeners choose inUse forwards = .ok ports ∧
    Forall₂ (fun f port => f.requireLocalPort = true → port = f.requestedPort) forwards ports

def Enough (inUse : List PortNumber) (count : ℕ) : Prop :=
  ∃ free : List PortNumber, free.Nodup ∧ (∀ port ∈ free, port ∉ inUse) ∧ count ≤ free.length

/-- No forward with an occupied port stands before one that requires its port. -/
def FallbacksLast (inUse : List PortNumber) (forwards : List SupervisorForward) : Prop :=
  forwards.Pairwise fun f g => f.requestedPort ∈ inUse → g.requireLocalPort = false

variable {choose : List PortNumber → Option PortNumber} {inUse : List PortNumber}
variable {f g : SupervisorForward} {forwards xs : List SupervisorForward} {port : PortNumber}

theorem not_mem_of_bindListener (hc : ChoosesFree choose)
    (h : bindListener choose inUse f = .ok port) : port ∉ inUse := by
  unfold bindListener at h
  split_ifs at h with hm
  · have hf := hc inUse
    rw [orFail_eq_ok.mp h] at hf
    exact hf
  · cases h
    exact hm

theorem Enough.cons {count : ℕ} (h : Enough inUse (count+1)) (port : PortNumber) :
    Enough (port::inUse) count := by
  obtain ⟨free,hn,hf,hc⟩ := h
  refine ⟨free.erase port,hn.erase port,fun p hp => ?_,?_⟩
  · obtain ⟨hne,hm⟩ := hn.mem_erase_iff.mp hp
    exact not_mem_cons_of_ne_of_not_mem hne (hf p hm)
  · rw [length_erase]
    split_ifs <;> omega

theorem bindsRequired_cons (hp : bindListener choose inUse f = .ok port)
    (hf : f.requireLocalPort = true → port = f.requestedPort)
    (hr : BindsRequired choose (port::inUse) xs) : BindsRequired choose inUse (f::xs) := by
  obtain ⟨ps,hpo,hb⟩ := hr
  refine ⟨port::ps,?_,.cons hf hb⟩
  simp only [bindListeners,bind_eq_ok,pure_eq_ok]
  exact ⟨port,hp,ps,hpo,rfl⟩

/-- With the fallbacks last and ports enough, every forward is bound. -/
theorem bindsRequired_of_fallbacksLast (hch : ChoosesFree choose)
    (hd : (forwards.map (·.requestedPort)).Nodup)
    (hfr : ∀ f ∈ forwards, f.requireLocalPort = true → f.requestedPort ∉ inUse)
    (hl : FallbacksLast inUse forwards) (he : Enough inUse forwards.length) :
    BindsRequired choose inUse forwards := by
  induction forwards generalizing inUse with
  | nil => exact ⟨[],rfl,.nil⟩
  | cons f xs ih =>
    obtain ⟨hne,hd⟩ := nodup_cons.mp hd
    obtain ⟨hfi,hl⟩ := pairwise_cons.mp hl
    obtain ⟨hf,hfr⟩ := forall_mem_cons.mp hfr
    have hre : ∀ g ∈ xs, g.requestedPort ≠ f.requestedPort := fun g hg heq =>
      hne (mem_map.mpr ⟨g,hg,heq⟩)
    by_cases hm : f.requestedPort ∈ inUse
    · -- No later forward requires its port, so any choice will do.
      have ho : f.requireLocalPort = false := by
        cases hr : f.requireLocalPort with
        | true => exact absurd hm (hf hr)
        | false => rfl
      obtain ⟨port,hp⟩ : ∃ port, choose inUse = some port := by
        obtain ⟨free,-,hfr,hco⟩ := he
        have hc := hch inUse
        cases hn : choose inUse with
        | some port => exact ⟨port,rfl⟩
        | none =>
          rw [hn] at hc
          obtain ⟨port,hp⟩ := exists_mem_of_length_pos (Nat.lt_of_lt_of_le (Nat.succ_pos _) hco)
          exact absurd (hc port) (hfr port hp)
      have hb : bindListener choose inUse f = .ok port := by
        simp [bindListener,hm,ho,hp]
      refine bindsRequired_cons hb (by simp [ho]) (ih hd ?_ ?_ (he.cons port))
      · exact fun g hg hr => absurd (hfi g hg hm) (by simp [hr])
      · exact hl.imp_of_mem fun _ hg _ _ => hfi _ hg hm
    · refine bindsRequired_cons (if_neg hm) (fun _ => rfl) (ih hd ?_ ?_ (he.cons f.requestedPort))
      · exact fun g hg hr => not_mem_cons_of_ne_of_not_mem (hre g hg) (hfr g hg hr)
      · refine hl.imp_of_mem fun hg _ hpa hu => hpa ?_
        exact (mem_cons.mp hu).resolve_left (hre _ hg)

theorem bindListeners_cons {ps : List PortNumber}
    (h : bindListeners choose inUse (f::xs) = .ok ps) :
    ∃ port later, bindListener choose inUse f = .ok port ∧
      bindListeners choose (port::inUse) xs = .ok later ∧ ps = port::later := by
  simp only [bindListeners,bind_eq_ok,pure_eq_ok] at h
  obtain ⟨port,hp,later,hl,rfl⟩ := h
  exact ⟨port,later,hp,hl,rfl⟩

/-- Bound ports were free, and each is bound once. -/
theorem enough_of_bindListeners (hc : ChoosesFree choose) {ps : List PortNumber}
    (h : bindListeners choose inUse forwards = .ok ps) :
    ps.Nodup ∧ (∀ port ∈ ps, port ∉ inUse) ∧ ps.length = forwards.length := by
  induction forwards generalizing inUse ps with
  | nil => cases h; simp
  | cons f xs ih =>
    obtain ⟨port,lt,hpo,hl,rfl⟩ := bindListeners_cons h
    obtain ⟨hn,hf,hle⟩ := ih hl
    refine ⟨nodup_cons.mpr ⟨fun hm => hf port hm mem_cons_self,hn⟩,?_,?_⟩
    · refine forall_mem_cons.mpr ⟨not_mem_of_bindListener hc hpo,fun p hp hu => ?_⟩
      exact hf p hp (mem_cons_of_mem port hu)
    · rw [length_cons,length_cons,hle]

theorem not_bound_of_required {ports : List PortNumber} (hg : g ∈ forwards)
    (hr : g.requireLocalPort = true) (hu : g.requestedPort ∈ inUse) :
    bindListeners choose inUse forwards ≠ .ok ports := by
  induction forwards generalizing inUse ports with
  | nil => cases hg
  | cons f xs ih =>
    intro h
    obtain ⟨port,lt,hp,hl,-⟩ := bindListeners_cons h
    rcases mem_cons.mp hg with rfl | hg
    · rw [bindListener,if_pos hu,if_pos hr] at hp
      cases hp
    · exact ih hg (mem_cons_of_mem port hu) hl

/-- A fallback that takes the port of a later forward keeps that forward from its port. -/
theorem not_bound_of_fallback {ports : List PortNumber}
    (hc : ∀ inUse, g.requestedPort ∉ inUse → choose inUse = some g.requestedPort)
    (hs : [f,g] <+ forwards) (hu : f.requestedPort ∈ inUse)
    (hr : g.requireLocalPort = true) : bindListeners choose inUse forwards ≠ .ok ports := by
  induction forwards generalizing inUse ports with
  | nil => cases hs
  | cons fst xs ih =>
    intro h
    obtain ⟨port,lt,hp,hl,-⟩ := bindListeners_cons h
    cases hs with
    | cons _ hs => exact ih hs (mem_cons_of_mem port hu) hl
    | cons_cons _ hs =>
      refine not_bound_of_required (singleton_sublist.mp hs) hr ?_ hl
      by_cases hg : g.requestedPort ∈ inUse
      · exact mem_cons_of_mem port hg
      · rw [bindListener,if_pos hu] at hp
        split_ifs at hp
        rw [orFail_eq_ok,hc inUse hg] at hp
        cases hp
        exact mem_cons_self

open Classical in
/-- An operating system that prefers one port. -/
theorem exists_choosesFree (port : PortNumber) :
    ∃ choose, ChoosesFree choose ∧ ∀ inUse, port ∉ inUse → choose inUse = some port := by
  refine ⟨fun inUse => if port ∉ inUse then some port else
    if h : ∃ b, b ∉ inUse then some h.choose else none,fun inUse => ?_,?_⟩
  · dsimp only
    split_ifs with hf ho
    · exact ho.choose_spec
    · exact not_exists_not.mp ho
    · exact hf
  · exact fun inUse hf => if_pos hf

/-- All forwards are bound and the required ports are met, whatever the operating system chooses,
exactly if no occupied port comes before a required one and enough ports are free. -/
theorem bindListeners_iff (hdistinct : (forwards.map (·.requestedPort)).Nodup)
    (hfree : ∀ f ∈ forwards, f.requireLocalPort = true → f.requestedPort ∉ inUse) :
    (∀ choose, ChoosesFree choose → BindsRequired choose inUse forwards) ↔
      FallbacksLast inUse forwards ∧ Enough inUse forwards.length := by
  constructor
  · intro h
    constructor
    · refine pairwise_iff_forall_sublist.mpr fun {f g} hs hus => ?_
      obtain ⟨choose,hc,hpr⟩ := exists_choosesFree g.requestedPort
      obtain ⟨ps,hp,-⟩ := h choose hc
      by_contra hr
      exact not_bound_of_fallback hpr hs hus (Bool.not_eq_false _ ▸ hr) hp
    · obtain ⟨choose,hc,-⟩ := exists_choosesFree ⟨1,by decide,by decide⟩
      obtain ⟨ps,hp,-⟩ := h choose hc
      obtain ⟨hn,hu,hle⟩ := enough_of_bindListeners hc hp
      exact ⟨ps,hn,hu,hle.ge⟩
  · rintro ⟨hl,he⟩ choose hc
    exact bindsRequired_of_fallbacksLast hc hdistinct hfree hl he

def sampleForward (port : PortNumber) (requireLocalPort : Bool) : SupervisorForward :=
  ⟨port,requireLocalPort,"localhost",port⟩

/-- The occupied port 80 falls back to 3000, which the second forward requires. -/
theorem fallback_takes_required : ∃ choose, ChoosesFree choose ∧
    bindListeners choose [⟨80,by decide,by decide⟩] [sampleForward ⟨80,by decide,by decide⟩ false,
      sampleForward ⟨3000,by decide,by decide⟩ true] =
      .error (.requiredListener ⟨3000,by decide,by decide⟩) := by
  obtain ⟨choose,hc,hp⟩ := exists_choosesFree ⟨3000,by decide,by decide⟩
  refine ⟨choose,hc,?_⟩
  have hf := hp [⟨80,by decide,by decide⟩] (by decide)
  simp [bindListeners,bindListener,sampleForward,hf]
  rfl

/-- The occupied port 80 falls back after the required port is bound. -/
theorem bindListeners_fallback_last : Enough [⟨80,by decide,by decide⟩] 2 ∧
    ∀ choose, ChoosesFree choose → BindsRequired choose [⟨80,by decide,by decide⟩]
      [sampleForward ⟨3000,by decide,by decide⟩ true,
        sampleForward ⟨80,by decide,by decide⟩ false] := by
  have he : Enough [⟨80,by decide,by decide⟩] 2 :=
    ⟨[⟨1,by decide,by decide⟩,⟨2,by decide,by decide⟩],by decide,by decide,by decide⟩
  refine ⟨he,(bindListeners_iff (by decide) (by decide)).mpr ⟨?_,he⟩⟩
  exact pairwise_pair.mpr fun _ => rfl

end Cdenv.ListenerBinding
