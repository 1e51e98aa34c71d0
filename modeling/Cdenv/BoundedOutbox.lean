import Mathlib.Data.List.Basic

/-!
# Bounded outboxes

To queue an item a sender first takes the item's bytes and then a place. It waits for
either if there is not enough or if somebody is already waiting, and waiting senders are
served in their order.
-/
namespace Cdenv
open List

/-- A queue with a bounded number of places whose items also share a budget of bytes. -/
structure Outbox (ι α : Type*) where
  queue : List α
  freeBytes : ℕ
  (awaitingBytes awaitingPlace : List (ι × α))

namespace Outbox
variable {ι α : Type*} (places : ℕ) (size : α → ℕ)

def empty (bytes : ℕ) : Outbox ι α := ⟨[],bytes,[],[]⟩

/-- Everything on its way through the outbox. -/
def items (o : Outbox ι α) : List α :=
  o.queue++o.awaitingPlace.map Prod.snd++o.awaitingBytes.map Prod.snd

def hasPlace (o : Outbox ι α) : Bool := o.awaitingPlace.isEmpty && o.queue.length < places

def hasBytes (o : Outbox ι α) (amount : ℕ) : Bool :=
  o.awaitingBytes.isEmpty && amount ≤ o.freeBytes

def ready (o : Outbox ι α) (amount : ℕ) : Bool := o.hasBytes amount && o.hasPlace places

/-- The item's bytes are held. The Boolean says whether it is queued already. -/
def enter (o : Outbox ι α) (sender : ι) (item : α) : Outbox ι α × Bool :=
  if o.hasPlace places then ({ o with queue := o.queue++[item] }, true)
  else ({ o with awaitingPlace := o.awaitingPlace++[(sender, item)] }, false)

/-- A send as far as it goes without waiting. -/
def offer (o : Outbox ι α) (sender : ι) (item : α) : Outbox ι α × Bool :=
  if o.hasBytes (size item) then
    enter places { o with freeBytes := o.freeBytes - size item } sender item
  else ({ o with awaitingBytes := o.awaitingBytes++[(sender, item)] }, false)

/-- The first sender waiting for bytes gets them and goes on. -/
def grantBytes (o : Outbox ι α) : Option (ι × Outbox ι α × Bool) :=
  match o.awaitingBytes with
  | [] => none
  | (sender, item)::rest =>
    if size item ≤ o.freeBytes then
      some (sender, enter places
        { o with awaitingBytes := rest, freeBytes := o.freeBytes - size item } sender item)
    else none

def grantPlace (o : Outbox ι α) : Option (ι × Outbox ι α) :=
  match o.awaitingPlace with
  | [] => none
  | (sender, item)::rest =>
    if o.queue.length < places then
      some (sender, { o with queue := o.queue++[item], awaitingPlace := rest })
    else none

/-- The single consumer takes the first item, whose place is free at once. -/
def take (o : Outbox ι α) : Option (α × Outbox ι α) :=
  match o.queue with
  | [] => none
  | item::rest => some (item, { o with queue := rest })

/-- Its bytes are free when the consumer has disposed of it. -/
def release (o : Outbox ι α) (bytes : ℕ) : Outbox ι α :=
  { o with freeBytes := o.freeBytes+bytes }

variable {o : Outbox ι α} {a : α}

theorem mem_items : a ∈ o.items ↔ a ∈ o.queue ∨ (∃ sd, (sd, a) ∈ o.awaitingPlace) ∨
      ∃ sd, (sd, a) ∈ o.awaitingBytes := by
  simp only [items,mem_append,mem_map,Prod.exists,exists_eq_right,or_assoc]

variable {places size}

theorem offer_snd (o : Outbox ι α) (sd : ι) (x : α) :
    (offer places size o sd x).2 = o.ready places (size x) := by
  unfold offer enter ready hasPlace
  cases o.hasBytes (size x) <;> cases (o.awaitingPlace.isEmpty && _) <;> rfl

variable {sd : ι} {x : α}

theorem mem_items_enter (h : a ∈ (enter places o sd x).1.items) : a = x ∨ a ∈ o.items := by
  unfold enter at h
  split_ifs at h
  · rw [mem_items] at h ⊢
    simp only [mem_append,mem_singleton] at h
    tauto
  · rw [mem_items] at h ⊢
    simp only [mem_append,mem_singleton,Prod.mk.injEq,exists_or] at h
    tauto

theorem mem_items_offer (h : a ∈ (offer places size o sd x).1.items) : a = x ∨ a ∈ o.items := by
  unfold offer at h
  split_ifs at h
  · rcases mem_items_enter h with h | h
    · exact .inl h
    · exact .inr h
  · rw [mem_items] at h ⊢
    simp only [mem_append,mem_singleton,Prod.mk.injEq,exists_or] at h
    tauto

variable {xs : Outbox ι α}

theorem mem_items_take (h : o.take = some (x, xs)) :
    x ∈ o.items ∧ (a ∈ xs.items → a ∈ o.items) := by
  unfold take at h
  split at h
  · cases h
  · next fst tl hq =>
    cases h
    simp only [mem_items,hq,mem_cons]
    tauto

variable {next : Outbox ι α}

theorem mem_items_grantPlace (h : grantPlace places o = some (sd, next)) (ha : a ∈ next.items) :
    a ∈ o.items := by
  unfold grantPlace at h
  split at h
  · cases h
  · next fst x xs hw =>
    split_ifs at h
    cases h
    simp only [mem_items,hw,mem_append,mem_cons,Prod.mk.injEq] at ha ⊢
    rcases ha with (ha | ha) | ⟨who,ha⟩ | ha
    · exact .inl ha
    · simp only [not_mem_nil,or_false] at ha
      exact .inr (.inl ⟨sd,.inl ⟨rfl,ha⟩⟩)
    · exact .inr (.inl ⟨who,.inr ha⟩)
    · exact .inr (.inr ha)

variable {r : Outbox ι α × Bool}

theorem mem_items_grantBytes (h : grantBytes places size o = some (sd, r))
    (ha : a ∈ r.1.items) : a ∈ o.items := by
  unfold grantBytes at h
  split at h
  · cases h
  · next fst x xs hw =>
    split_ifs at h
    cases h
    simp only [mem_items,hw,mem_cons,Prod.mk.injEq]
    rcases mem_items_enter ha with rfl | ha
    · exact .inr (.inr ⟨sd,.inl ⟨rfl,rfl⟩⟩)
    · rw [mem_items] at ha
      rcases ha with ha | ha | ⟨who,ha⟩
      · exact .inl ha
      · exact .inr (.inl ha)
      · exact .inr (.inr ⟨who,.inr ha⟩)

end Outbox
end Cdenv
