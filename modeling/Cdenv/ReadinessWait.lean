import Cdenv.EventRun

/-!
# Waiting for the credential transport

`wait_ready` tests a flag and, where it is unset, registers with the notifier and sleeps.
`transport_ready` sets the flag and then wakes the calls that are registered at that
moment. Other calls go on in between.
-/
namespace Cdenv.ReadinessWait
open EventRun List

inductive Call where
  | testing
  /-- The flag was unset; the call has not registered yet. -/
  | tested
  | suspended
  | returned
deriving DecidableEq

structure State where
  ready : Bool
  calls : List Call
  /-- Calls of `transport_ready` that have stored the flag and not notified yet. -/
  storing : ℕ

def start : State := ⟨false,[],0⟩

/-- The test and the registration are two steps, and so are the store and the notification. -/
inductive Event where
  | waitReady
  | load (index : ℕ)
  | notified (index : ℕ)
  | store
  | notifyWaiters

def wake : Call → Call
  | .suspended => .returned
  | call => call

def step (s : State) : Event → Option State
  | .waitReady => some { s with calls := s.calls++[.testing] }
  | .load index =>
    if s.calls[index]? = some .testing then
      some { s with calls := s.calls.set index (if s.ready then .returned else .tested) }
    else none
  | .notified index =>
    if s.calls[index]? = some .tested then
      some { s with calls := s.calls.set index .suspended }
    else none
  | .store => some { s with ready := true, storing := s.storing+1 }
  | .notifyWaiters =>
    if 0 < s.storing then
      some { s with calls := s.calls.map wake, storing := s.storing-1 }
    else none

variable {s t : State} {e : Event}

/-- A call that has stored the flag leaves it set. -/
theorem ready_of_storing {es : List Event} (h : run step start es = some s)
    (hst : 0 < s.storing) : s.ready = true := by
  have hi : s.storing = 0 ∨ s.ready = true := by
    refine run_invariant (I := fun s => s.storing = 0 ∨ s.ready = true) ?_ (.inl rfl) h
    intro s e t hs ht
    cases e with
    | waitReady => cases ht; exact hs
    | load index | notified index =>
      obtain ⟨-,⟨⟩⟩ := Option.ite_none_right_eq_some.mp ht
      exact hs
    | store => cases ht; exact .inr rfl
    | notifyWaiters =>
      obtain ⟨hp,⟨⟩⟩ := Option.ite_none_right_eq_some.mp ht
      exact .inr (hs.resolve_left (Nat.ne_of_gt hp))
  exact hi.resolve_left (Nat.ne_of_gt hst)

/-- The flag is set and no call is on its way to sleep. -/
structure Settled (s : State) : Prop where
  ready : s.ready = true
  tested : .tested ∉ s.calls
  suspended : .suspended ∉ s.calls

/-- A notification settles the calls, if none is between its two steps. -/
theorem settled_wake (hr : s.ready = true) (ht : .tested ∉ s.calls) (storing : ℕ) :
    Settled { s with calls := s.calls.map wake, storing } := by
  refine ⟨hr,fun h => ?_,fun h => ?_⟩
  all_goals
    obtain ⟨call,hc,hw⟩ := mem_map.mp h
    cases call <;> cases hw
  exact ht hc

theorem Settled.step (hs : Settled s) (ht : step s e = some t) : Settled t := by
  obtain ⟨hr,hte,hsu⟩ := hs
  cases e with
  | waitReady =>
    cases ht
    exact ⟨hr,by simpa using hte,by simpa using hsu⟩
  | load i =>
    obtain ⟨-,⟨⟩⟩ := Option.ite_none_right_eq_some.mp ht
    rw [hr]
    exact ⟨rfl,fun h => hte ((mem_or_eq_of_mem_set h).resolve_right nofun),
      fun h => hsu ((mem_or_eq_of_mem_set h).resolve_right nofun)⟩
  | notified i =>
    obtain ⟨hc,-⟩ := Option.ite_none_right_eq_some.mp ht
    exact absurd (mem_of_getElem? hc) hte
  | store =>
    cases ht
    exact ⟨rfl,hte,hsu⟩
  | notifyWaiters =>
    obtain ⟨-,⟨⟩⟩ := Option.ite_none_right_eq_some.mp ht
    exact settled_wake hr hte _

/-- After `transport_ready` completes no call ever sleeps, exactly if none stood between its
test of the flag and its registration. -/
theorem never_suspended_iff {events : List Event} (hs : run step start events = some s)
    (ht : step s .notifyWaiters = some t) :
    (∀ later u, run step t later = some u → .suspended ∉ u.calls) ↔ .tested ∉ s.calls := by
  obtain ⟨hst,⟨⟩⟩ := Option.ite_none_right_eq_some.mp ht
  constructor
  · intro h hm
    obtain ⟨i,hi⟩ := mem_iff_getElem?.mp hm
    have hc : (s.calls.map wake)[i]? = some .tested := by simp [hi,wake]
    refine h [.notified i] _ (run_cons.mpr ⟨_,if_pos hc,rfl⟩) ?_
    exact mem_set (List.getElem?_eq_some_iff.mp hc).1 _
  · intro hte later u hu
    have hse := settled_wake (ready_of_storing hs hst) hte (s.storing-1)
    exact (run_invariant (fun _ _ _ => Settled.step) hse hu).suspended

/-- The call tests the flag, the transport becomes ready, and then the call goes to sleep. -/
theorem wakeup_lost : ∃ s t, run step start [.waitReady,.load 0,.store] = some s ∧
    step s .notifyWaiters = some t ∧ ∃ u, run step t [.notified 0] = some u ∧
      .suspended ∈ u.calls :=
  ⟨_,_,rfl,rfl,_,rfl,mem_cons_self⟩

theorem never_suspended_registered : step ⟨true,[.suspended],1⟩ .notifyWaiters =
      some ⟨true,[.returned],0⟩ ∧
    ∀ later u, run step ⟨true,[.returned],0⟩ later = some u → .suspended ∉ u.calls :=
  ⟨rfl,(@never_suspended_iff ⟨true,[.suspended],1⟩ _ [.waitReady,.load 0,.notified 0,.store]
    rfl rfl).mpr (by decide)⟩

end Cdenv.ReadinessWait
