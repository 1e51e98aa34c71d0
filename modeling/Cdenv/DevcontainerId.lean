import Cdenv.Substitution
import Mathlib.Data.Nat.Digits.Lemmas

/-!
# The text of a devcontainer identity

A digest of 32 bytes is written as 52 digits in base 32 by repeated long division in place, with a
16-bit carry and quotient bytes that would become zero if they did not fit. They always do, so the
passes are those of the division on numbers, every pass takes one digit off the big-endian value,
and two digests never share a text.
-/
namespace Cdenv.DevcontainerId
open Substitution List

/-- One byte of a pass: its quotient, zero where it does not fit in a byte, and the carry. -/
def passByte (carry : UInt16) (byte : UInt8) : UInt8 × UInt16 :=
  let value := carry <<< 8 ||| byte.toUInt16
  (if value / 32 < 256 then (value / 32).toUInt8 else 0, value % 32)

def pass : UInt16 → List UInt8 → List UInt8 × UInt16
  | carry, [] => ([], carry)
  | carry, byte::bytes =>
    let head := passByte carry byte
    let rest := pass head.2 bytes
    (head.1::rest.1, rest.2)

def numbers (bytes : List UInt8) : List ℕ := bytes.map UInt8.toNat

variable {s : List UInt8} {c : UInt16}

/-- No bit of the carry is shifted out and no quotient is cut. -/
theorem passByte_eq (h : c.toNat < 32) (byte : UInt8) :
    (passByte c byte).1.toNat = (c.toNat*256+byte.toNat) / 32 ∧
      (passByte c byte).2.toNat = (c.toNat*256+byte.toNat) % 32 := by
  have hb := byte.toNat_lt
  have hv : (c <<< 8 ||| byte.toUInt16).toNat = c.toNat*256+byte.toNat := by
    have ho := Nat.shiftLeft_add_eq_or_of_lt hb c.toNat
    have hs : c.toNat <<< 8 < 2^16 := by
      rw [Nat.shiftLeft_eq]
      omega
    rw [UInt16.toNat_or,UInt16.toNat_shiftLeft,UInt8.toNat_toUInt16]
    change c.toNat <<< 8 % 2^16 ||| byte.toNat = _
    rw [Nat.mod_eq_of_lt hs,← ho,Nat.shiftLeft_eq]
  unfold passByte
  generalize c <<< 8 ||| byte.toUInt16 = value at hv
  have hd : (value / 32).toNat = (c.toNat*256+byte.toNat) / 32 := by rw [← hv]; rfl
  have hf : value / 32 < 256 := UInt16.lt_iff_toNat_lt.mpr (hd ▸ (by change _ < 256; omega))
  dsimp only
  rw [if_pos hf,UInt16.toNat_toUInt8,hd,← hv]
  refine ⟨Nat.mod_eq_of_lt ?_,rfl⟩
  omega

theorem pass_eq (h : c.toNat < 32) : numbers (pass c s).1 = (divide32 c.toNat (numbers s)).1 ∧
      (pass c s).2.toNat = (divide32 c.toNat (numbers s)).2 := by
  induction s generalizing c with
  | nil => exact ⟨rfl,rfl⟩
  | cons byte s ih =>
    obtain ⟨hq,hr⟩ := passByte_eq h byte
    have hi := ih (hr ▸ Nat.mod_lt _ (by decide))
    rw [hr] at hi
    exact ⟨congrArg₂ cons hq hi.1,hi.2⟩

theorem any_numbers : (numbers s).any (· != 0) = s.any (· != 0) := by
  rw [numbers,any_map]
  congr 1
  funext byte
  have h := @UInt8.toNat_inj byte 0
  rw [Function.comp_apply,Bool.eq_iff_iff,bne_iff_ne,bne_iff_ne]
  exact not_congr h

/-- `base32_big_integer`'s first loop, on bytes. -/
def digitLoop : Loop (List UInt8 × Text) Text where
  step s :=
    if s.1.any (· != 0) then
      let p := pass 0 s.1
      .inl (p.1, s.2++[base32Digit p.2.toNat])
    else .inr s.2
  measure s := bigEndian (numbers s.1)
  decreases := by
    intro s t h
    dsimp only at h
    split_ifs at h with hs
    cases h
    have hp := bigEndian_pos (by simpa using any_numbers.trans hs)
    have hd := divide32_spec 0 (numbers s.1)
    have hq := (pass_eq (c := 0) (s := s.1) (by decide)).1
    change _ = (divide32 0 _).1 at hq
    dsimp only
    rw [hq]
    omega

def base32BigInteger (bytes : List UInt8) : Text :=
  let output := digitLoop.run (bytes, [])
  (output++replicate (52 - output.length) '0').reverse

/-- The loop on bytes is the loop on numbers. -/
theorem digitLoop_eq (s : List UInt8 × Text) :
    digitLoop.run s = base32Loop.run (numbers s.1, s.2) := by
  refine digitLoop.run_induction (P := fun s r => r = base32Loop.run (numbers s.1, s.2)) ?_ ?_ s
  · intro s r h
    simp only [digitLoop] at h
    split_ifs at h with hs
    cases h
    exact (base32Loop.run_done (by simp only [base32Loop,any_numbers,if_neg hs])).symm
  · intro s t h ih
    simp only [digitLoop] at h
    split_ifs at h with hs
    cases h
    obtain ⟨hq,hr⟩ := pass_eq (c := 0) (s := s.1) (by decide)
    rw [ih,hq,hr]
    exact (base32Loop.run_next (by simp only [base32Loop,any_numbers,if_pos hs]; rfl)).symm

theorem base32BigInteger_eq (bs : List UInt8) :
    base32BigInteger bs = Substitution.base32BigInteger (numbers bs) := by
  simp only [base32BigInteger,Substitution.base32BigInteger,digitLoop_eq]

def alphabet : Text := "0123456789abcdefghijklmnopqrstuv"

/-- The number that digits, the most significant first, denote in base 32. -/
def value (digits : Text) : ℕ := Nat.ofDigits 32 (digits.reverse.map alphabet.idxOf)

theorem base32Digit_spec {n : ℕ} (h : n < 32) :
    base32Digit n ∈ alphabet ∧ alphabet.idxOf (base32Digit n) = n := by
  have ha : ∀ i : Fin 32, base32Digit i ∈ alphabet ∧ alphabet.idxOf (base32Digit i) = i := by decide
  exact ha ⟨n,h⟩

theorem bigEndian_eq_zero {ns : List ℕ} (h : ns.any (· != 0) = false) : bigEndian ns = 0 := by
  induction ns with
  | nil => rfl
  | cons n ns ih =>
    obtain ⟨hn,ht⟩ := Bool.or_eq_false_iff.mp (any_cons.symm.trans h)
    rw [bigEndian,ih ht,bne_eq_false_iff_eq.mp hn,Nat.zero_mul]

theorem remainder_lt {carry : ℕ} (h : carry < 32) (ns : List ℕ) : (divide32 carry ns).2 < 32 := by
  induction ns generalizing carry with
  | nil => exact h
  | cons n ns ih => exact ih (Nat.mod_lt _ (by decide))

/-- The digits so far and the number that is left make up the number at the start. -/
structure Split (n : ℕ) (s : List ℕ × Text) : Prop where
  total : bigEndian s.1*32^s.2.length+Nat.ofDigits 32 (s.2.map alphabet.idxOf) = n
  length : s.2.length ≤ 52
  digits : ∀ c ∈ s.2, c ∈ alphabet

theorem Split.step {n : ℕ} (hn : n < 32^52) {s t : List ℕ × Text} (h : Split n s)
    (hs : base32Loop.step s = .inl t) : Split n t := by
  simp only [base32Loop] at hs
  split_ifs at hs with ha
  cases hs
  have hp := bigEndian_pos (by simpa using ha)
  obtain ⟨hm,hi⟩ := base32Digit_spec (remainder_lt (by decide : 0 < 32) s.1)
  have hd := divide32_spec 0 s.1
  refine ⟨?_,?_,?_⟩
  · rw [← h.total,map_append,Nat.ofDigits_append,map_singleton,Nat.ofDigits_singleton,hi,
      length_append,length_map,length_singleton,pow_succ]
    rw [Nat.zero_mul,Nat.zero_add] at hd
    rw [← hd]
    ring
  · have hl : 32^s.2.length ≤ n := h.total ▸ le_add_right (Nat.le_mul_of_pos_left _ hp)
    have hp := (Nat.pow_lt_pow_iff_right (by decide)).mp (hl.trans_lt hn)
    rw [length_append,length_singleton]
    omega
  · intro c hc
    rcases mem_append.mp hc with hc | hc
    · exact h.digits c hc
    · exact mem_singleton.mp hc ▸ hm

theorem bigEndian_eq (ns : List ℕ) : bigEndian ns = Nat.ofDigits 256 ns.reverse := by
  induction ns with
  | nil => rfl
  | cons n ns ih =>
    rw [bigEndian,ih,reverse_cons,Nat.ofDigits_append,Nat.ofDigits_singleton,length_reverse]
    ring

theorem numbers_lt : ∀ n ∈ (numbers s).reverse, n < 256 := by
  intro n hn
  obtain ⟨byte,-,rfl⟩ := mem_map.mp (mem_reverse.mp hn)
  exact byte.toNat_lt

theorem bigEndian_lt (h : s.length = 32) : bigEndian (numbers s) < 32^52 := by
  rw [bigEndian_eq]
  have hl := Nat.ofDigits_lt_base_pow_length (by decide : 1 < 256) (@numbers_lt s)
  rw [length_reverse,numbers,length_map,h] at hl
  exact hl.trans (by decide)

theorem bigEndian_inj {t : List UInt8} (hl : s.length = t.length)
    (h : bigEndian (numbers s) = bigEndian (numbers t)) : s = t := by
  rw [bigEndian_eq,bigEndian_eq] at h
  have hr := Nat.ofDigits_inj_of_len_eq (by decide) (by simpa [numbers] using hl) numbers_lt
    numbers_lt h
  exact map_injective_iff.mpr (fun _ _ => UInt8.toNat_inj.mp) (reverse_injective hr)

theorem split_run {n : ℕ} (hn : n < 32^52) {ns : List ℕ} (h : bigEndian ns = n) :
    Split n ([], base32Loop.run (ns, [])) := by
  refine base32Loop.run_invariant (I := Split n) (Q := fun r => Split n ([], r)) ?_ ?_
    ⟨?_,by simp,by simp⟩
  · exact fun s t => .step hn
  · intro s r hs hr
    simp only [base32Loop] at hr
    split_ifs at hr with ha
    cases hr
    have ht := hs.total
    rw [bigEndian_eq_zero (Bool.not_eq_true _ ▸ ha),Nat.zero_mul] at ht
    exact ⟨by simpa [bigEndian] using ht,hs.length,hs.digits⟩
  · simpa using h

theorem base32BigInteger_spec (h : s.length = 32) :
    (base32BigInteger s).length = 52 ∧ (∀ c ∈ base32BigInteger s, c ∈ alphabet) ∧
      value (base32BigInteger s) = bigEndian (numbers s) := by
  obtain ⟨ht,hl,hd⟩ := split_run (bigEndian_lt h) rfl
  rw [base32BigInteger_eq,Substitution.base32BigInteger]
  generalize base32Loop.run (numbers s, []) = r at ht hl hd
  refine ⟨?_,?_,?_⟩
  · rw [length_reverse,length_append,length_replicate,Nat.add_sub_cancel' hl]
  · intro c hc
    rcases mem_append.mp (mem_reverse.mp hc) with hc | hc
    · exact hd c hc
    · rw [eq_of_mem_replicate hc]
      decide
  · have hz : alphabet.idxOf '0' = 0 := rfl
    rw [value,reverse_reverse,map_append,map_replicate,hz,Nat.ofDigits_append_replicate_zero,← ht]
    simp [bigEndian]

theorem base32BigInteger_digits (bytes : List UInt8) (h : bytes.length = 32) :
    (∃ passes l, Loop.Steps digitLoop.step (bytes, []) passes l ∧
      digitLoop.step l = .inr (digitLoop.run (bytes, []))) ∧
    (base32BigInteger bytes).length = 52 ∧ (∀ c ∈ base32BigInteger bytes, c ∈ alphabet) ∧
    value (base32BigInteger bytes) = bigEndian (numbers bytes) ∧
    (∀ b, b.length = 32 → base32BigInteger b = base32BigInteger bytes → b = bytes) ∧
    ∀ (dg : OrderedMap Text Text → List UInt8) labels labels', dg labels = bytes →
      (dg labels').length = 32 → dg labels' ≠ bytes →
      devcontainerId (numbers ∘ dg) labels' ≠ devcontainerId (numbers ∘ dg) labels := by
  obtain ⟨hl,hd,hv⟩ := base32BigInteger_spec h
  have hi : ∀ b, b.length = 32 → base32BigInteger b = base32BigInteger bytes → b = bytes := by
    intro b ho he
    apply bigEndian_inj (ho.trans h.symm)
    rw [← hv,← he,(base32BigInteger_spec ho).2.2]
  refine ⟨digitLoop.exists_last _,hl,hd,hv,hi,?_⟩
  rintro dg labels labels' rfl ho hn he
  apply hn (hi _ ho _)
  rw [base32BigInteger_eq,base32BigInteger_eq]
  exact he

theorem base32BigInteger_digits_ones : (replicate 32 (255 : UInt8)).length = 32 ∧
    value (base32BigInteger (replicate 32 255)) =
      bigEndian (numbers (replicate 32 255)) :=
  ⟨rfl,(base32BigInteger_digits _ rfl).2.2.2.1⟩

end Cdenv.DevcontainerId
