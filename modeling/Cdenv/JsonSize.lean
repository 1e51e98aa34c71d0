import Cdenv.JsonRecord
import Mathlib.Tactic.IntervalCases

/-!
# The size of compact JSON

How many bytes a value takes, from the sizes of its parts: a sequence or an object has its
brackets, its colons and one comma fewer than it has members. No line feed is written, so a
document of one line is a value and the line feed after it.
-/
namespace Cdenv.JsonText
open TextScan List

theorem length_utf8 (t : Text) : (utf8 t).length = byteLength t := by
  induction t with
  | nil => rfl
  | cons c t ih =>
    unfold utf8 byteLength at ih ⊢
    rw [flatMap_cons,length_append,ih,map_cons,sum_cons,String.length_utf8EncodeChar]

@[simp] theorem byteLength_nil : byteLength [] = 0 := rfl

@[simp] theorem byteLength_cons (c : Char) (t : Text) :
    byteLength (c::t) = c.utf8Size+byteLength t := by
  rw [byteLength,map_cons,sum_cons,byteLength]

@[simp] theorem byteLength_append (s t : Text) : byteLength (s++t) = byteLength s+byteLength t := by
  unfold byteLength
  rw [map_append,sum_append]

theorem byteLength_of_ascii {t : Text} (h : ∀ c ∈ t, c.val ≤ 127) : byteLength t = t.length := by
  induction t with
  | nil => rfl
  | cons c t ih =>
    have hc := Char.utf8Size_eq_one_iff.mpr (h c mem_cons_self)
    rw [byteLength_cons,hc,ih (forall_mem_cons.mp h).2,length_cons]
    omega

theorem byteLength_decimal (n : ℕ) : byteLength (decimal n) = (decimal n).length := by
  apply byteLength_of_ascii
  intro c hc
  have hd := Nat.isDigit_of_mem_toDigits (by decide) (by decide) hc
  simp only [Char.isDigit,Bool.and_eq_true,decide_eq_true_eq] at hd
  exact UInt32.le_trans hd.2 (by decide)

theorem newline_ne_ofNat {n : ℕ} (h : 128 ≤ n) (h' : n < 256) : (10 : UInt8) ≠ UInt8.ofNat n := by
  intro heq
  have hn := congrArg UInt8.toNat heq
  rw [UInt8.toNat_ofNat'] at hn
  change 10 = _ at hn
  omega

/-- Only a line feed is written as the byte of a line feed. -/
theorem mem_utf8_newline {t : Text} (h : (10 : UInt8) ∈ utf8 t) : '\n' ∈ t := by
  obtain ⟨c,hc,hb⟩ := mem_flatMap.mp h
  suffices hne : c = '\n' from hne ▸ hc
  have hv : c.val.toNat = 10 := by
    unfold String.utf8EncodeChar at hb
    dsimp only at hb
    split_ifs at hb with h₁ h₂ h₃
    · simp only [mem_singleton] at hb
      have hn := congrArg UInt8.toNat hb
      rw [UInt8.toNat_ofNat'] at hn
      change 10 = _ at hn
      omega
    -- Every byte of a longer sequence has its highest bit.
    all_goals
      exfalso
      simp only [mem_cons,not_mem_nil,or_false] at hb
    · rcases hb with h | h
      all_goals exact newline_ne_ofNat (by omega) (by omega) h
    · rcases hb with h | h | h
      all_goals exact newline_ne_ofNat (by omega) (by omega) h
    · rcases hb with h | h | h | h
      all_goals exact newline_ne_ofNat (by omega) (by omega) h
  exact Char.ext (UInt32.toNat_inj.mp hv)

def escapedLength (c : Char) : ℕ :=
  if c = '"' ∨ c = '\\' ∨ c = '\n' ∨ c = '\r' ∨ c = '\t' ∨ c.toNat = 8 ∨ c.toNat = 12 then 2
  else if c.toNat < 32 then 6
  else c.utf8Size

theorem mem_hexDigit (n : ℕ) : hexDigit n ∈ "0123456789abcdef".toList := by
  unfold hexDigit
  by_cases hn : n < 16
  · interval_cases n <;> decide
  · have hno : "0123456789abcdef".toList[n]? = none := getElem?_eq_none (Nat.le_of_not_lt hn)
    rw [getD_eq_getElem?_getD,hno]
    decide

theorem utf8Size_hexDigit (n : ℕ) : (hexDigit n).utf8Size = 1 := by
  have ha : ∀ c ∈ "0123456789abcdef".toList, c.utf8Size = 1 := all_iff_forall_prop.mp (by decide)
  exact ha _ (mem_hexDigit n)

theorem byteLength_escapeChar (c : Char) : byteLength (escapeChar c) = escapedLength c := by
  unfold escapeChar escapedLength
  split_ifs <;> simp_all [utf8Size_hexDigit] <;> rfl

/-- A string has two quotes and its escapes. -/
def quotedLength (s : Text) : ℕ := (s.map escapedLength).sum+2

theorem byteLength_quote (s : Text) : byteLength (quote s) = quotedLength s := by
  have hi : byteLength (s.flatMap escapeChar) = (s.map escapedLength).sum := by
    induction s with
    | nil => rfl
    | cons c s ih =>
      rw [flatMap_cons,byteLength_append,ih,byteLength_escapeChar,map_cons,sum_cons]
  rw [quote,byteLength_append,byteLength_cons,hi,byteLength_cons,byteLength_nil, quotedLength]
  have hq : Char.utf8Size '"' = 1 := rfl
  omega

theorem length_le_quotedLength (s : Text) : s.length+2 ≤ quotedLength s := by
  have he : ∀ c, 1 ≤ escapedLength c := by
    intro c
    unfold escapedLength
    have hs := Char.utf8Size_pos c
    split_ifs <;> omega
  unfold quotedLength
  induction s with
  | nil => rfl
  | cons c s ih =>
    have hc := he c
    rw [length_cons,map_cons,sum_cons]
    omega

theorem byteLength_string (value : Text) :
    byteLength (render (.string value)) = quotedLength value := by
  rw [render_string,byteLength_quote]

theorem byteLength_number (n : ℕ) :
    byteLength (render (JsonRecord.encodeUnsigned n)) = (decimal n).length := by
  rw [JsonRecord.encodeUnsigned,render_number,byteLength_decimal]

theorem not_mem_escapeChar (c : Char) : '\n' ∉ escapeChar c := by
  have hh : ∀ n, hexDigit n ≠ '\n' := by
    intro n heq
    have hm := mem_hexDigit n
    rw [heq] at hm
    exact absurd hm (by decide)
  unfold escapeChar
  split_ifs with h₁ h₂ h₃
  all_goals simp [(hh _).symm]
  exact fun h => h₃ h.symm

theorem not_mem_quote (s : Text) : '\n' ∉ quote s := by
  intro hm
  rcases mem_append.mp hm with hm | hm
  · rcases mem_cons.mp hm with hm | hm
    · exact absurd hm (by decide)
    · obtain ⟨c,-,hc⟩ := mem_flatMap.mp hm
      exact not_mem_escapeChar c hc
  · exact absurd hm (by decide)

theorem renderItems_eq (items : List Json) : renderItems items = items.map render := by
  induction items with
  | nil => rfl
  | cons x xs ih => rw [renderItems,ih,map_cons]

theorem renderFields_eq (fs : List (Text × Json)) :
    renderFields fs = fs.map fun f => quote f.1++ ':'::render f.2 := by
  induction fs with
  | nil => rfl
  | cons f xs ih =>
    obtain ⟨n,v⟩ := f
    rw [renderFields,ih,map_cons]

theorem byteLength_intercalate (parts : List Text) :
    byteLength ([','].intercalate parts) = (parts.map byteLength).sum+(parts.length - 1) := by
  induction parts with
  | nil => rfl
  | cons p xs ih =>
    cases xs with
    | nil => simp
    | cons next xs =>
      have hc : Char.utf8Size ',' = 1 := rfl
      rw [intercalate_cons_cons,byteLength_append,byteLength_append,ih]
      simp only [byteLength_cons,byteLength_nil,map_cons,sum_cons,length_cons]
      omega

theorem byteLength_array (items : List Json) : byteLength (render (.array items)) =
      (items.map fun x => byteLength (render x)).sum+(items.length - 1)+2 := by
  rw [render_array,byteLength_append,byteLength_cons,byteLength_intercalate,renderItems_eq,
    map_map,length_map,byteLength_cons,byteLength_nil]
  have ho : Char.utf8Size '[' = 1 := rfl
  have hc : Char.utf8Size ']' = 1 := rfl
  simp only [Function.comp_def]
  omega

theorem sum_fields {ns : List Text} {vs : List Json} (hl : ns.length = vs.length) :
    ((ns.zip vs).map fun f => byteLength (quote f.1++ ':'::render f.2)).sum =
      (ns.map quotedLength).sum+ns.length + (vs.map fun v => byteLength (render v)).sum := by
  induction ns generalizing vs with
  | nil =>
    rw [length_eq_zero_iff.mp hl.symm]
    rfl
  | cons n ns ih =>
    cases vs with
    | nil => cases hl
    | cons v vs =>
      have hr := ih (Nat.succ.inj hl)
      have hc : Char.utf8Size ':' = 1 := rfl
      simp only [zip_cons_cons,map_cons,sum_cons,length_cons,
        byteLength_append,byteLength_cons,byteLength_quote] at hr ⊢
      omega

/-- Name, colon, value and a comma or bracket for each field, and one bracket more. -/
theorem byteLength_encodeFields (ns : List Text) (vs : List Json) (hne : ns ≠ [])
    (hl : ns.length = vs.length) :
    byteLength (render (JsonRecord.encodeFields ns vs)) = (ns.map quotedLength).sum+2*ns.length+1 +
        (vs.map fun v => byteLength (render v)).sum := by
  have hs := sum_fields hl
  have hp := length_pos_iff.mpr hne
  have ho : Char.utf8Size '\x7b' = 1 := rfl
  have hc : Char.utf8Size '\x7d' = 1 := rfl
  rw [JsonRecord.encodeFields,render_object,byteLength_append,byteLength_cons,
    byteLength_intercalate,renderFields_eq,map_map,length_map,length_zip,
    ← hl,Nat.min_self,byteLength_cons,byteLength_nil]
  simp only [Function.comp_def]
  omega

theorem not_mem_delimited {parts : List Text} {left right : Char} (hl : '\n' ≠ left)
    (hr : '\n' ≠ right) (h : ∀ p ∈ parts, '\n' ∉ p) :
    '\n' ∉ left::[','].intercalate parts++[right] := by
  intro hm
  simp only [cons_append,mem_cons,mem_append,not_mem_nil,hl,hr, false_or,or_false] at hm
  obtain ⟨p,hp,hm⟩ := (mem_intercalate (by decide)).mp hm
  exact h p hp hm

theorem not_mem_array {items : List Json} (h : ∀ x ∈ items, '\n' ∉ render x) :
    '\n' ∉ render (.array items) := by
  rw [render_array,renderItems_eq]
  apply not_mem_delimited (by decide) (by decide)
  exact forall_mem_map.mpr h

theorem not_mem_encodeFields {ns : List Text} {vs : List Json} (h : ∀ v ∈ vs, '\n' ∉ render v) :
    '\n' ∉ render (JsonRecord.encodeFields ns vs) := by
  rw [JsonRecord.encodeFields,render_object,renderFields_eq]
  apply not_mem_delimited (by decide) (by decide)
  rw [forall_mem_map]
  intro f hf hm
  rcases mem_append.mp hm with hm | hm
  · exact not_mem_quote _ hm
  · rcases mem_cons.mp hm with hc | hm
    · exact absurd hc (by decide)
    · exact h f.2 (of_mem_zip hf).2 hm

theorem not_mem_number (n : ℕ) : '\n' ∉ render (JsonRecord.encodeUnsigned n) := by
  rw [JsonRecord.encodeUnsigned,render_number]
  intro hm
  have hd := Nat.isDigit_of_mem_toDigits (by decide) (by decide) hm
  exact absurd hd (by decide)

theorem not_mem_string (v : Text) : '\n' ∉ render (.string v) := by
  rw [render_string]
  exact not_mem_quote v

end Cdenv.JsonText
