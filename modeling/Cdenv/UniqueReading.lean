import Mathlib.Algebra.Ring.Nat
import Mathlib.Data.List.Forall2

/-!
# Streams that can be read in one way only

Records are written one after the other, each as a head and a body. A head says by itself where
it ends. A body does not, so the stream of several records can be read in one way only if the
length of a body is known from its head. Numbers of a fixed width are written with their most
significant byte first.
-/
namespace Cdenv.UniqueReading
open List

/-- The lowest `width` bytes of a number, the most significant first. -/
def beBytes : ℕ → ℕ → List UInt8
  | 0, _ => []
  | width+1, n => beBytes width (n / 256)++[UInt8.ofNat n]

@[simp] theorem length_beBytes (width n : ℕ) : (beBytes width n).length = width := by
  induction width generalizing n with
  | zero => rfl
  | succ width ih => rw [beBytes,length_append,ih,length_singleton]

theorem beBytes_inj {w n m : ℕ} (hn : n < 256^w) (hm : m < 256^w)
    (h : beBytes w n = beBytes w m) : n = m := by
  induction w generalizing n m with
  | zero =>
    omega
  | succ w ih =>
    obtain ⟨hre,hl⟩ := append_inj' h rfl
    have hq := ih (by omega) (by omega) hre
    have hr := congrArg UInt8.toNat (head_eq_of_cons_eq hl)
    simp only [UInt8.toNat_ofNat'] at hr
    omega

variable {α β : Type*}

/-- The heads of such records end where they say. -/
def SelfDelimiting (head : α → List β) (P : α → Prop) : Prop :=
  ∀ a b, P a → P b → ∀ x y, head a++x = head b++y → head a = head b

def write (head body : α → List β) (records : List α) : List β :=
  records.flatMap fun a => head a++body a

/-- Streams whose bodies have the lengths their heads call for agree record by record. -/
theorem forall₂_of_write_eq {hd body : α → List β} {P : α → Prop}
    (hh : SelfDelimiting hd P) (hne : ∀ a, hd a ≠ []) {l m : List α}
    (hl : ∀ a ∈ l, P a) (hm : ∀ b ∈ m, P b)
    (hb : ∀ a ∈ l, ∀ b ∈ m, hd a = hd b → (body a).length = (body b).length)
    (h : write hd body l = write hd body m) :
    List.Forall₂ (fun a b => hd a = hd b ∧ body a = body b) l m := by
  induction l generalizing m with
  | nil =>
    cases m with
    | nil => exact .nil
    | cons b m =>
      have hn : hd b++(body b++write hd body m) = [] := by
        simpa [write] using h.symm
      exact absurd (append_eq_nil_iff.mp hn).1 (hne b)
  | cons a l ih =>
    cases m with
    | nil =>
      have hn : hd a++(body a++write hd body l) = [] := by
        simpa [write] using h
      exact absurd (append_eq_nil_iff.mp hn).1 (hne a)
    | cons b m =>
      have hst : hd a++(body a++write hd body l) = hd b++(body b++write hd body m) := by
        simpa [write] using h
      have hs := hh a b (hl a mem_cons_self) (hm b mem_cons_self) _ _ hst
      rw [hs] at hst
      have hle := hb a mem_cons_self b mem_cons_self hs
      obtain ⟨hc,hr⟩ := append_inj (append_cancel_left hst) hle
      refine .cons ⟨hs,hc⟩ (ih (fun a' ha' => hl a' (mem_cons_of_mem _ ha'))
        (fun b' hb' => hm b' (mem_cons_of_mem _ hb')) ?_ hr)
      intro a' ha' b' hb'
      exact hb a' (mem_cons_of_mem _ ha') b' (mem_cons_of_mem _ hb')

end Cdenv.UniqueReading
