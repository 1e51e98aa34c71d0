import Mathlib.Algebra.Ring.Nat
import Mathlib.Data.Bool.AllAny
import Mathlib.Data.Char
import Mathlib.Data.List.Infix
import Mathlib.Data.List.DropRight
import Mathlib.Data.List.Lex

/-!
# Text as a sequence of scalar values

Program strings are lists of Unicode scalar values. Byte-wise string order and
scalar-wise lexicographic order agree, so the list order is the string order. The
scanning primitives below follow the standard string methods of the modelled
language: `split` is `List.splitOn`, `join` is `List.intercalate`, ASCII case
conversion and character classes are the core `Char` functions, and only what has
no counterpart there is defined here.
-/
namespace Cdenv
open List

abbrev Text := List Char

abbrev Bytes := List UInt8

/-- A literal stands for its scalar values. -/
instance : Coe String Text := ⟨String.toList⟩

instance : LawfulBEq Text := inferInstance

namespace TextScan

/-- General category `Cc`. -/
def isControl (c : Char) : Bool :=
  c.toNat < 32 || (127 ≤ c.toNat && c.toNat ≤ 159)

/-- Property `White_Space`. -/
def isWhitespace (c : Char) : Bool :=
  (9 ≤ c.toNat && c.toNat ≤ 13) || c.toNat == 32 || c.toNat == 0x85 || c.toNat == 0xA0 ||
    c.toNat == 0x1680 || (0x2000 ≤ c.toNat && c.toNat ≤ 0x200A) || c.toNat == 0x2028 ||
    c.toNat == 0x2029 || c.toNat == 0x202F || c.toNat == 0x205F || c.toNat == 0x3000

def utf8 (s : Text) : Bytes := s.flatMap String.utf8EncodeChar

/-- The length in bytes, as the modelled language counts it. -/
def byteLength (s : Text) : ℕ := (s.map Char.utf8Size).sum

def toAsciiLowercase (s : Text) : Text := s.map Char.toLower

def toAsciiUppercase (s : Text) : Text := s.map Char.toUpper

def eqIgnoreAsciiCase (s t : Text) : Bool := toAsciiLowercase s == toAsciiLowercase t

/-- The names of shell and environment variables: a letter or underscore first. -/
def isNameStart (c : Char) : Bool := c == '_' || c.isAlpha

def isNameChar (c : Char) : Bool := c == '_' || c.isAlphanum

def isName : Text → Bool
  | [] => false
  | c::rest => isNameStart c && rest.all isNameChar

def splitOnce (sep : Char) : Text → Option (Text × Text)
  | [] => none
  | c::s =>
    if c = sep then some ([], s) else (splitOnce sep s).map fun p => (c::p.1, p.2)

def rsplitOnce (sep : Char) (s : Text) : Option (Text × Text) :=
  (splitOnce sep s.reverse).map fun p => (p.2.reverse, p.1.reverse)

def untilFirst (sep : Char) (s : Text) : Text := s.takeWhile (· != sep)

def afterLast (sep : Char) (s : Text) : Text := (s.reverse.takeWhile (· != sep)).reverse

def stripPrefix (p s : Text) : Option Text :=
  if p.isPrefixOf s then some (s.drop p.length) else none

def containsText (p s : Text) : Bool := s.tails.any p.isPrefixOf

def trimStart (s : Text) : Text := s.dropWhile isWhitespace

def trim (s : Text) : Text := (trimStart s).rdropWhile isWhitespace

def trimEndMatches (c : Char) (s : Text) : Text := s.rdropWhile (· == c)

/-- Decimal rendering of a machine number. -/
def decimal (n : ℕ) : Text := Nat.toDigits 10 n

/-- The value of a digit string in one radix; `none` outside its alphabet. -/
def digitValue (radix : ℕ) (c : Char) : Option ℕ :=
  let v :=
    if c.isDigit then c.toNat - 48
    else if 'a' ≤ c ∧ c ≤ 'z' then c.toNat - 87
    else if 'A' ≤ c ∧ c ≤ 'Z' then c.toNat - 55
    else radix
  if v < radix then some v else none

variable {s : Text} {c sep : Char}

theorem isAlpha_eq : c.isAlpha = (c.isUpper || c.isLower) := rfl

theorem isNameChar_of_mem (h : isName s = true) (hc : c ∈ s) : isNameChar c = true := by
  cases s with
  | nil => cases h
  | cons d s =>
    simp only [isName,Bool.and_eq_true,all_eq_true] at h
    rcases mem_cons.mp hc with rfl | hc
    · simp only [isNameStart,Bool.or_eq_true] at h
      simp only [isNameChar,Char.isAlphanum,Bool.or_eq_true]
      exact h.1.imp_right .inl
    · exact h.2 c hc

theorem isNameChar_of_mem_decimal {n : ℕ} (h : c ∈ decimal n) : isNameChar c = true := by
  have hd := Nat.isDigit_of_mem_toDigits (by decide) (by decide) h
  simp [isNameChar,Char.isAlphanum,hd]

theorem not_mem_decimal (h : c.isDigit = false) (n : ℕ) : c ∉ decimal n := by
  intro hc
  rw [Nat.isDigit_of_mem_toDigits (by decide) (by decide) hc] at h
  cases h

theorem decimal_inj {m n : ℕ} : decimal m = decimal n ↔ m = n := by
  refine ⟨fun h => ?_,fun h => h ▸ rfl⟩
  have hv := congrArg (Nat.ofDigitChars 10 · 0) h
  simpa [decimal] using hv

theorem splitOnce_spec {a b : Text} (h : splitOnce sep s = some (a,b)) :
    s = a++sep::b ∧ sep ∉ a := by
  induction s generalizing a with
  | nil => simp [splitOnce] at h
  | cons c s ih =>
    simp only [splitOnce] at h
    split_ifs at h with hc
    · cases h
      simp [hc]
    · obtain ⟨p,hp,he⟩ := Option.map_eq_some_iff.mp h
      cases he
      obtain ⟨hs,hn⟩ := ih hp
      exact ⟨by rw [hs]; rfl,by simp [Ne.symm hc,hn]⟩

theorem splitOnce_eq_none : splitOnce sep s = none ↔ sep ∉ s := by
  induction s with
  | nil => simp [splitOnce]
  | cons c s ih =>
    simp only [splitOnce]
    split_ifs with hc
    · simp [hc]
    · simp [ih,Ne.symm hc]

theorem splitOnce_append {a : Text} (b : Text) (h : sep ∉ a) :
    splitOnce sep (a++sep::b) = some (a,b) := by
  induction a with
  | nil => simp [splitOnce]
  | cons c a ih =>
    simp only [mem_cons,not_or] at h
    simp [splitOnce,Ne.symm h.1,ih h.2]

theorem not_mem_of_mem_splitOn {piece : Text} (h : piece ∈ s.splitOn sep) : sep ∉ piece := by
  induction s generalizing piece with
  | nil => simp_all
  | cons c s ih =>
    rw [splitOn_cons_eq_if_modifyHead] at h
    split_ifs at h with hc
    · rcases mem_cons.mp h with rfl | h
      · simp
      · exact ih h
    · obtain ⟨fst,xs,hs⟩ := exists_cons_of_ne_nil (splitOn_ne_nil sep s)
      rw [hs,modifyHead_cons] at h
      rcases mem_cons.mp h with rfl | h
      · have hf := ih (hs ▸ mem_cons_self)
        have hne : c ≠ sep := by simpa using hc
        simp [hne.symm,hf]
      · exact ih (hs ▸ mem_cons_of_mem _ h)

theorem mem_intercalate (hc : c ≠ sep) {pcs : List Text} :
    c ∈ [sep].intercalate pcs ↔ ∃ piece ∈ pcs, c ∈ piece := by
  induction pcs with
  | nil => simp
  | cons piece pcs ih =>
    cases pcs with
    | nil => simp
    | cons next xs =>
      rw [intercalate_cons_cons,mem_append,ih]
      simp [hc]

/-- Cutting a text loses its separators only. -/
theorem mem_splitOn (hc : c ≠ sep) : (∃ pc ∈ s.splitOn sep, c ∈ pc) ↔ c ∈ s := by
  rw [← mem_intercalate hc,intercalate_splitOn]

theorem mem_of_mem_trim (h : c ∈ trim s) : c ∈ s :=
  (dropWhile_suffix _).mem ((List.rdropWhile_prefix _ _).mem h)

theorem untilFirst_append {a : Text} (h : sep ∉ a) (b : Text) :
    untilFirst sep (a++b) = a++untilFirst sep b := by
  apply takeWhile_append_of_pos
  intro c hc
  exact bne_iff_ne.mpr fun he => h (he ▸ hc)

theorem afterLast_append (a : Text) {b : Text} (h : sep ∉ b) :
    afterLast sep (a++b) = afterLast sep a++b := by
  unfold afterLast
  rw [reverse_append,takeWhile_append_of_pos,reverse_append,reverse_reverse]
  intro c hc
  exact bne_iff_ne.mpr fun he => h (he ▸ mem_reverse.mp hc)

theorem stripPrefix_append (p s : Text) : stripPrefix p (p++s) = some s := by
  simp [stripPrefix]

/-- The last separator of a text. -/
theorem exists_last (h : sep ∈ s) : ∃ a b, s = a++sep::b ∧ sep ∉ b := by
  obtain ⟨a,b,hs,ha⟩ := eq_append_cons_of_mem (mem_reverse.mpr h)
  refine ⟨b.reverse,a.reverse,?_,by simpa using ha⟩
  rw [← reverse_reverse s,hs]
  simp

theorem isSuffix_afterLast (sep : Char) (s : Text) : afterLast sep s <:+ s := by
  rw [← reverse_prefix,afterLast,reverse_reverse]
  exact takeWhile_prefix _

theorem rsplitOnce_append (a : Text) {b : Text} (h : sep ∉ b) :
    rsplitOnce sep (a++sep::b) = some (a,b) := by
  have hr : (a++sep::b).reverse = b.reverse++sep::a.reverse := by simp
  rw [rsplitOnce,hr,splitOnce_append _ (by simpa using h)]
  simp

theorem rsplitOnce_spec {a b : Text} (h : rsplitOnce sep s = some (a,b)) : s = a++sep::b := by
  obtain ⟨p,hp,he⟩ := Option.map_eq_some_iff.mp h
  cases he
  rw [← reverse_reverse s,(splitOnce_spec hp).1]
  simp

theorem containsText_iff {p : Text} : containsText p s = true ↔ p <:+: s := by
  simp only [containsText,any_eq_true,mem_tails, isPrefixOf_iff_prefix,infix_iff_prefix_suffix,
    and_comm]

theorem isUpper_toLower (c : Char) : c.toLower.isUpper = false := by
  unfold Char.toLower Char.isUpper
  grind

theorem toLower_eq_self (h : c.isUpper = false) : c.toLower = c := by
  unfold Char.toLower Char.isUpper at *
  grind

theorem toLower_cases (c : Char) : c.toLower = c ∨ c.toLower.isLower = true := by
  unfold Char.toLower Char.isLower
  split_ifs
  · simp only [Bool.and_eq_true,decide_eq_true_eq]
    grind
  · exact .inl rfl

theorem eq_of_toLower {d : Char} (h : c.toLower = d) (hd : d.isLower = false) : c = d := by
  rcases toLower_cases c with hc | hc
  · rw [← h,hc]
  · rw [h,hd] at hc
    cases hc

theorem toAsciiLowercase_idem (s : Text) :
    toAsciiLowercase (toAsciiLowercase s) = toAsciiLowercase s := by
  simp [toAsciiLowercase,toLower_eq_self (isUpper_toLower _)]

theorem mem_toAsciiLowercase (hc : c.isAlpha = false) : c ∈ toAsciiLowercase s ↔ c ∈ s := by
  obtain ⟨hu,hl⟩ := Bool.or_eq_false_iff.mp hc
  constructor
  · intro hm
    obtain ⟨d,hd,he⟩ := mem_map.mp hm
    exact eq_of_toLower he hl ▸ hd
  · exact fun hm => mem_map.mpr ⟨c,hm,toLower_eq_self hu⟩

end TextScan
end Cdenv
