import Cdenv.TextScan

/-!
# Internet addresses as the standard library reads and prints them

The reader is the library's recursive-descent reader: every `read` consumes a prefix or fails. The
printer prints the canonical text.
-/
namespace Cdenv
open List

inductive IpAddr where
  | v4 (octets : List ℕ)
  | v6 (segments : List ℕ)
deriving DecidableEq

namespace IpAddr
open TextScan

/-- A maximal run of digits, refused when it is empty, too long, too large or
carries a forbidden leading zero. -/
def readNumber (radix maxDigits limit : ℕ) (allowZeroPrefix : Bool) (s : Text) :
    Option (ℕ × Text) :=
  let digits := s.takeWhile fun c => (digitValue radix c).isSome
  let value := (digits.filterMap (digitValue radix)).foldl (fun n d => n*radix+d) 0
  if digits.isEmpty || maxDigits < digits.length || limit < value ||
      (!allowZeroPrefix && digits.head? == some '0' && 1 < digits.length) then none
  else some (value, s.drop digits.length)

/-- The separator is demanded before every element but the first. -/
def readSeparator {A : Type} (sep : Char) (index : ℕ) (read : Text → Option (A × Text))
    (s : Text) : Option (A × Text) :=
  if index = 0 then read s else (stripPrefix [sep] s).bind read

/-- A group has at most three digits and no leading zero. -/
def readIpv4 (s : Text) : Option (List ℕ × Text) := do
  let (a, s) ← readSeparator '.' 0 (readNumber 10 3 255 false) s
  let (b, s) ← readSeparator '.' 1 (readNumber 10 3 255 false) s
  let (c, s) ← readSeparator '.' 2 (readNumber 10 3 255 false) s
  let (d, s) ← readSeparator '.' 3 (readNumber 10 3 255 false) s
  some ([a,b,c,d], s)

/-- At most `slots` further groups from position `index`; the flag reports a
trailing embedded IPv4 address, which needs two free slots. -/
def readGroups : (slots index : ℕ) → Text → List ℕ × Bool × Text
  | 0, _, s => ([], false, s)
  | slots+1, index, s =>
    match (if 0 < slots then readSeparator ':' index readIpv4 s else none) with
    | some ([a,b,c,d], s') => ([a*256+b,c*256+d], true, s')
    | _ =>
      match readSeparator ':' index (readNumber 16 4 65535 true) s with
      | none => ([], false, s)
      | some (g, s') =>
        let r := readGroups slots (index+1) s'
        (g::r.1, r.2)

/-- A group has at most four hexadecimal digits; the last two may be written as an embedded IPv4
address, and one `::` stands for at least one zero group. -/
def readIpv6 (s : Text) : Option (List ℕ × Text) :=
  let (head, embedded, s₁) := readGroups 8 0 s
  if head.length = 8 then some (head, s₁)
  else if embedded then none
  else
    (stripPrefix [':',':'] s₁).map fun s₂ =>
      let (tail, _, s₃) := readGroups (7 - head.length) 0 s₂
      (head++List.replicate (8 - head.length - tail.length) 0++tail, s₃)

def parse (s : Text) : Option IpAddr :=
  match readIpv4 s with
  | some (octets, []) => some (.v4 octets)
  | some _ => none
  | none =>
    match readIpv6 s with
    | some (segments, []) => some (.v6 segments)
    | _ => none

/-- Start and length of the first longest run of zero groups. -/
def zeroSpan : List ℕ → (index start len bestStart bestLen : ℕ) → ℕ × ℕ
  | [], _, _, _, bestStart, bestLen => (bestStart, bestLen)
  | g::gs, index, start, len, bestStart, bestLen =>
    if g = 0 then
      let start := if len = 0 then index else start
      if bestLen < len+1 then zeroSpan gs (index+1) start (len+1) start (len+1)
      else zeroSpan gs (index+1) start (len+1) bestStart bestLen
    else zeroSpan gs (index+1) 0 0 bestStart bestLen

def renderGroups (gs : List ℕ) : Text := List.intercalate [':'] (gs.map (Nat.toDigits 16))

def renderOctets (octets : List ℕ) : Text := List.intercalate ['.'] (octets.map decimal)

/-- `to_string`: mapped IPv4 addresses keep their dotted form. -/
def render : IpAddr → Text
  | .v4 octets => renderOctets octets
  | .v6 segments =>
    match segments with
    | [0,0,0,0,0,0xffff,a,b] =>
      "::ffff:"++renderOctets [a/256,a%256,b/256,b%256]
    | _ =>
      let (start, len) := zeroSpan segments 0 0 0 0 0
      if 1 < len then
        renderGroups (segments.take start)++[':',':']++renderGroups (segments.drop (start+len))
      else renderGroups segments

def isIpv6 : IpAddr → Bool
  | .v4 _ => false
  | .v6 _ => true

def isLoopback : IpAddr → Bool
  | .v4 octets => octets.head? == some 127
  | .v6 segments => segments == [0,0,0,0,0,0,0,1]

/-- RFC 1918 ranges; only meaningful for IPv4. -/
def isPrivate : IpAddr → Bool
  | .v4 (a::b::_) => a == 10 || (a == 172 && 16 ≤ b && b ≤ 31) || (a == 192 && b == 168)
  | _ => false

/-- IPv4 `169.254/16` and IPv6 `fe80::/10`. -/
def isLinkLocal : IpAddr → Bool
  | .v4 (a::b::_) => a == 169 && b == 254
  | .v6 (a::_) => a / 64 == 0xfe80 / 64
  | _ => false

/-- IPv6 `fc00::/7`. -/
def isUniqueLocal : IpAddr → Bool
  | .v6 (a::_) => a / 512 == 0xfc00 / 512
  | _ => false

theorem digitValue_of_isDigit {c : Char} (h : c.isDigit = true) :
    digitValue 10 c = some (c.toNat - 48) := by
  have hb : c.toNat - 48 < 10 := by
    simp only [Char.isDigit,Bool.and_eq_true,decide_eq_true_eq] at h
    have hu : c.toNat ≤ 57 := h.2
    omega
  simp only [digitValue,h,if_true,if_pos hb]

theorem decimal_octet : ∀ n < 256, (decimal n).length ≤ 3 ∧
    ¬ ((decimal n).head? = some '0' ∧ 1 < (decimal n).length) := by
  decide +kernel

theorem filterMap_digitValue_decimal (n : ℕ) :
    (decimal n).filterMap (digitValue 10) = (decimal n).map fun c => c.toNat - 48 := by
  rw [← filterMap_eq_map]
  apply filterMap_congr
  intro c hc
  exact digitValue_of_isDigit (Nat.isDigit_of_mem_toDigits (by decide) (by decide) hc)

theorem readNumber_decimal {n : ℕ} (hn : n < 256) {xs : Text}
    (hr : xs.takeWhile (fun c => (digitValue 10 c).isSome) = []) :
    readNumber 10 3 255 false (decimal n++xs) = some (n, xs) := by
  have hdi : (decimal n++xs).takeWhile (fun c => (digitValue 10 c).isSome) = decimal n := by
    rw [takeWhile_append_of_pos,hr,append_nil]
    intro c hc
    rw [digitValue_of_isDigit (Nat.isDigit_of_mem_toDigits (by decide) (by decide) hc)]
    rfl
  have hv : ((decimal n).filterMap (digitValue 10)).foldl (fun m d => m*10+d) 0 = n := by
    rw [filterMap_digitValue_decimal,foldl_map]
    have hd := Nat.ofDigitChars_toDigits (b := 10) (n := n) (by decide) (by decide)
    simpa [decimal,Nat.ofDigitChars,Nat.mul_comm] using hd
  have hne : (decimal n).isEmpty = false := by simp [decimal,Nat.toDigits_ne_nil]
  obtain ⟨hl,hz⟩ := decimal_octet n hn
  have hp : ((decimal n).isEmpty || 3 < (decimal n).length || 255 < n ||
      (!false && (decimal n).head? == some '0' && 1 < (decimal n).length)) = false := by
    have hf : ((decimal n).head? == some '0' && decide (1 < (decimal n).length)) = false := by
      rw [Bool.eq_false_iff,ne_eq,Bool.and_eq_true,beq_iff_eq,decide_eq_true_eq]
      exact hz
    rw [hne,Bool.not_false,Bool.true_and,hf,decide_eq_false (by omega),decide_eq_false (by omega)]
    rfl
  simp only [readNumber,hdi,hv,drop_left,hp,Bool.false_eq_true,if_false]

theorem readSeparator_decimal {n i : ℕ} (hn : n < 256) (hi : i ≠ 0) {xs : Text}
    (hr : xs.takeWhile (fun c => (digitValue 10 c).isSome) = []) :
    readSeparator '.' i (readNumber 10 3 255 false) ('.'::(decimal n++xs)) = some (n, xs) := by
  have hs : stripPrefix ['.'] ('.'::(decimal n++xs)) = some (decimal n++xs) := by
    simp [stripPrefix]
  rw [readSeparator,if_neg hi,hs]
  exact readNumber_decimal hn hr

/-- The printed text of an IPv4 address reads as that address. -/
theorem parse_renderOctets {a b c d : ℕ} (ha : a < 256) (hb : b < 256) (hc : c < 256)
    (hd : d < 256) : parse (renderOctets [a,b,c,d]) = some (.v4 [a,b,c,d]) := by
  have hs : ∀ xs : Text, ('.'::xs).takeWhile (fun c => (digitValue 10 c).isSome) = [] :=
    fun xs => rfl
  have ht : renderOctets [a,b,c,d] = decimal a++ '.'::(decimal b++ '.'::(decimal c ++
      '.'::(decimal d++[]))) := by
    simp [renderOctets,intercalate,intersperse]
  have hr : readIpv4 (renderOctets [a,b,c,d]) = some ([a,b,c,d], []) := by
    rw [ht,readIpv4,readSeparator,if_pos rfl,readNumber_decimal ha (hs _)]
    simp only [Option.bind_eq_bind,Option.bind_some]
    rw [readSeparator_decimal hb (by decide) (hs _)]
    simp only [Option.bind_some]
    rw [readSeparator_decimal hc (by decide) (hs _)]
    simp only [Option.bind_some]
    rw [readSeparator_decimal hd (by decide) rfl]
    rfl
  rw [parse,hr]

end IpAddr
end Cdenv
