import Cdenv.JsonText

/-!
# JSON records

Records and maps are written as objects, and reading takes back what was written.
-/
namespace Cdenv.JsonRecord
open TextScan List

/-- An object with exactly the named fields, in any order, or a sequence that gives them by
position. -/
def fields (names : List Text) : Json → Option (List Json)
  | .object entries =>
    if (entries.map Prod.fst).Nodup ∧ ∀ name ∈ entries.map Prod.fst, name ∈ names then
      names.mapM fun name => (entries.find? fun entry => entry.1 = name).map Prod.snd
    else none
  | .array items => if items.length = names.length then some items else none
  | _ => none

theorem mapM_find? (es bef : List (Text × Json)) (hn : ((bef++es).map Prod.fst).Nodup) :
    (es.map Prod.fst).mapM (fun n =>
      ((bef++es).find? fun entry => entry.1 = n).map Prod.snd) = some (es.map Prod.snd) := by
  induction es generalizing bef with
  | nil => rfl
  | cons entry xs ih =>
    have hr := ih (bef++[entry]) (by simpa using hn)
    rw [append_assoc,singleton_append] at hr
    have hfr : ∀ b ∈ bef, b.1 ≠ entry.1 := by
      intro b ho heq
      rw [map_append,nodup_append] at hn
      exact hn.2.2 b.1 (mem_map_of_mem ho) entry.1 (mem_map_of_mem mem_cons_self) heq
    have hf : (bef++entry::xs).find? (fun b => b.1 = entry.1) = some entry := by
      rw [find?_append,find?_eq_none.mpr (by simpa using hfr),Option.none_or,
        find?_cons_of_pos (by simp)]
    rw [map_cons,mapM_cons,hf,hr]
    rfl

def encodeFields (names : List Text) (values : List Json) : Json := .object (names.zip values)

theorem fields_encodeFields {names : List Text} {values : List Json} (hno : names.Nodup)
    (hl : names.length = values.length) :
    fields names (encodeFields names values) = some values := by
  have hn : (names.zip values).map Prod.fst = names := map_fst_zip (by omega)
  have hv : (names.zip values).map Prod.snd = values := map_snd_zip (by omega)
  have hf := mapM_find? (names.zip values) [] (by rwa [nil_append,hn])
  rw [nil_append,hn,hv] at hf
  unfold fields encodeFields
  dsimp only
  rw [hn,if_pos ⟨hno,fun _ h => h⟩,hf]

def encodeMap {α : Type} (encode : α → Json) (m : OrderedMap Text α) : Json :=
  .object (m.entries.map fun entry => (entry.1, encode entry.2))

/-- A map is an object, where a repeated key keeps its last value. -/
def decodeMap {α : Type} (decode : Json → Option α) : Json → Option (OrderedMap Text α)
  | .object entries =>
    (entries.mapM fun entry => (decode entry.2).map fun value => (entry.1, value)).map
      OrderedMap.ofList
  | _ => none

theorem decodeMap_encodeMap {α : Type} {encode : α → Json} {decode : Json → Option α}
    (h : ∀ a, decode (encode a) = some a) (m : OrderedMap Text α) :
    decodeMap decode (encodeMap encode m) = some m := by
  have he : (m.entries.map fun e => (e.1, encode e.2)).mapM
      (fun e => (decode e.2).map fun v => (e.1, v)) = some (m.entries.map id) := by
    rw [Fallible.mapM_map_eq_some_map]
    intro e _
    rw [h]
    rfl
  rw [map_id] at he
  unfold decodeMap encodeMap
  dsimp only
  rw [he,Option.map_some,OrderedMap.ofList_entries]

def decodeString : Json → Option Text
  | .string value => some value
  | _ => none

/-- A whole number below `2 ^ bits`, written without sign, fraction or exponent. -/
def decodeUnsigned (bits : ℕ) : Json → Option ℕ
  | .number text =>
    if text ≠ [] ∧ text.all Char.isDigit ∧ Nat.ofDigitChars 10 text 0 < 2^bits then
      some (Nat.ofDigitChars 10 text 0)
    else none
  | _ => none

def encodeUnsigned (n : ℕ) : Json := .number (decimal n)

theorem decodeUnsigned_encodeUnsigned {bits n : ℕ} (h : n < 2^bits) :
    decodeUnsigned bits (encodeUnsigned n) = some n := by
  have hv : Nat.ofDigitChars 10 (decimal n) 0 = n :=
    Nat.ofDigitChars_toDigits (by decide) (by decide)
  have hd : (decimal n).all Char.isDigit = true :=
    all_eq_true.mpr fun c hc => Nat.isDigit_of_mem_toDigits (by decide) (by decide) hc
  unfold decodeUnsigned encodeUnsigned
  dsimp only
  rw [hv,if_pos ⟨Nat.toDigits_ne_nil,hd,h⟩]

end Cdenv.JsonRecord
