import Cdenv.DockerfileGrammar

/-!
# Label values

Label values are written in the debug form of a string and read by the rules for a
double-quoted word of a Dockerfile. The two agree on the quote and the backslash. They
differ on every other escape, which the reader keeps as it stands, and on the dollar
sign, which the writer does not escape.

Which characters beyond ASCII are printed as they are is the parameter `printable`.
-/
namespace Cdenv.LabelText
open TextScan DockerfileGrammar List

section
variable (printable : Char → Bool)

def isKept (c : Char) : Bool :=
  (32 ≤ c.toNat && c.toNat < 127) || (127 ≤ c.toNat && printable c)

def escapeDebug (c : Char) : Text :=
  if c = '\x00' then ['\\','0']
  else if c = '\t' then ['\\','t']
  else if c = '\r' then ['\\','r']
  else if c = '\n' then ['\\','n']
  else if c = '"' then ['\\','"']
  else if c = '\\' then ['\\','\\']
  else if isKept printable c then [c]
  else '\\':: 'u':: '\x7b'::Nat.toDigits 16 c.toNat++['\x7d']

def debugQuote (s : Text) : Text := '"'::s.flatMap (escapeDebug printable)++['"']

/-- No dollar sign stands before a character that begins an expansion. -/
def dollarsPlain (letter : Char → Bool) : Text → Bool
  | [] => true
  | c::s => !(c == '$' && s.head?.any (beginsExpansion letter)) && dollarsPlain letter s

/-- Only printed characters, and no expansion. -/
def LabelPlain (letter : Char → Bool) (value : Text) : Prop :=
  (∀ c ∈ value, isKept printable c = true) ∧ dollarsPlain letter value = true

instance (letter : Char → Bool) (value : Text) : Decidable (LabelPlain printable letter value) :=
  letI := List.decidableBAll (isKept printable · = true) value
  inferInstanceAs (Decidable (_ ∧ _))

end

variable {pr letter : Char → Bool} {env : Text → Option Text}

theorem isKept_quote : isKept pr '"' = true := rfl

theorem isKept_backslash : isKept pr '\\' = true := rfl

variable {c : Char}

/-- The escape of a character the reader does not know begins with a backslash it keeps. -/
theorem escapeDebug_of_not_kept (h : isKept pr c = false) :
    ∃ d s, escapeDebug pr c = '\\'::d::s ∧ ['"','$','\\'].contains d = false := by
  have hq : c ≠ '"' := by
    rintro rfl
    exact absurd (isKept_quote.symm.trans h) (by decide)
  have hb : c ≠ '\\' := by
    rintro rfl
    exact absurd (isKept_backslash.symm.trans h) (by decide)
  simp only [escapeDebug,if_neg hq,if_neg hb,h,Bool.false_eq_true,if_false]
  split_ifs
  · exact ⟨'0',[],rfl,by decide⟩
  · exact ⟨'t',[],rfl,by decide⟩
  · exact ⟨'r',[],rfl,by decide⟩
  · exact ⟨'n',[],rfl,by decide⟩
  · exact ⟨'u',_,rfl,by decide⟩

theorem mem_toDigits {b n : ℕ} (hb : 1 < b) (h : c ∈ Nat.toDigits b n) :
    ∃ k, c = Nat.digitChar k := by
  induction n using Nat.strong_induction_on with
  | _ n ih =>
    rw [Nat.toDigits_eq_if hb] at h
    split_ifs at h with hn
    · exact ⟨n,mem_singleton.mp h⟩
    · rcases mem_append.mp h with h | h
      · exact ih (n / b) (Nat.div_lt_self (by omega) hb) h
      · exact ⟨n % b,mem_singleton.mp h⟩

theorem newline_not_mem_escapeDebug (c : Char) : '\n' ∉ escapeDebug pr c := by
  unfold escapeDebug
  split_ifs with h0 ht hr hn hq hb hk
  iterate 6 decide
  · simpa using Ne.symm hn
  · intro h
    rcases mem_append.mp h with h | h
    · simp only [mem_cons] at h
      rcases h with h | h | h | h
      · exact absurd h (by decide)
      · exact absurd h (by decide)
      · exact absurd h (by decide)
      · obtain ⟨k,hk⟩ := mem_toDigits (by decide) h
        exact Nat.digitChar_ne '\n' (by decide) hk.symm
    · exact absurd h (by decide)

theorem newline_not_mem_debugQuote (value : Text) : '\n' ∉ debugQuote pr value := by
  simp only [debugQuote,mem_append,mem_cons,mem_flatMap,not_mem_nil,
    or_false,not_or,not_exists,not_and]
  exact ⟨⟨by decide,fun c _ => newline_not_mem_escapeDebug c⟩,by decide⟩

theorem escapeDebug_of_kept (h : isKept pr c = true) (hq : c ≠ '"') (hb : c ≠ '\\') :
    escapeDebug pr c = [c] := by
  have hc : ∀ d : Char, d.toNat < 32 → c ≠ d := by
    rintro d hd rfl
    have h127 : ¬ 127 ≤ c.toNat := by omega
    have h32 : ¬ 32 ≤ c.toNat := by omega
    simp [isKept,h127,h32] at h
  simp only [escapeDebug,if_neg hq,if_neg hb,h,if_true,if_neg (hc '\x00' (by decide)),
    if_neg (hc '\t' (by decide)),if_neg (hc '\r' (by decide)),
    if_neg (hc '\n' (by decide))]

theorem readQuoted_kept (h : isKept pr c = true) (hd : c ≠ '$') (s : Text) :
    readQuoted letter env .text (escapeDebug pr c++s) =
      (readQuoted letter env .text s).map (c :: ·) := by
  by_cases hq : c = '"'
  · subst hq
    rfl
  by_cases hb : c = '\\'
  · subst hb
    rfl
  rw [escapeDebug_of_kept h hq hb]
  simp [readQuoted,hq,hb,hd]

theorem readQuoted_dollar_backslash (s : Text) : readQuoted letter env .dollar ('\\'::s) =
      (readQuoted letter env .text ('\\'::s)).map ('$' :: ·) := rfl

/-- A dollar sign that begins no expansion stands for itself. -/
theorem readQuoted_dollar_plain (s : Text)
    (h : isKept pr c = true → beginsExpansion letter c = false) :
    readQuoted letter env .dollar (escapeDebug pr c++s) =
      (readQuoted letter env .text (escapeDebug pr c++s)).map ('$' :: ·) := by
  cases hc : isKept pr c with
  | false =>
    obtain ⟨d,t,he,-⟩ := escapeDebug_of_not_kept hc
    rw [he]
    exact readQuoted_dollar_backslash _
  | true =>
    by_cases hq : c = '"'
    · rw [hq]
      exact readQuoted_dollar_backslash _
    by_cases hb : c = '\\'
    · rw [hb]
      exact readQuoted_dollar_backslash _
    have hbe := h hc
    have hd : c ≠ '$' := by
      rintro rfl
      exact absurd hbe (by simp [beginsExpansion,isSpecial])
    simp only [beginsExpansion,Bool.or_eq_false_iff,beq_eq_false_iff_ne] at hbe
    rw [escapeDebug_of_kept hc hq hb]
    simp [readQuoted,hbe,hq,hb,hd,Function.comp_def]

variable {value : Text}

/-- A plain value is read back under every environment. -/
theorem readQuoted_of_plain (h : LabelPlain pr letter value) :
    readQuoted letter env .text (value.flatMap (escapeDebug pr)++['"']) = some value := by
  obtain ⟨hk,hdo⟩ := h
  induction value with
  | nil => rfl
  | cons c value ih =>
    have hc := hk c mem_cons_self
    simp only [dollarsPlain,Bool.and_eq_true,Bool.not_eq_true'] at hdo
    have hr := ih (forall_mem_cons.mp hk).2 hdo.2
    rw [flatMap_cons,append_assoc]
    by_cases hd : c = '$'
    · subst hd
      have hm : readQuoted letter env .dollar
          (value.flatMap (escapeDebug pr)++['"']) = some ('$'::value) := by
        cases value with
        | nil => rfl
        | cons d value =>
          have hb : beginsExpansion letter d = false := by simpa using hdo.1
          rw [flatMap_cons,append_assoc] at hr ⊢
          rw [readQuoted_dollar_plain _ fun _ => hb,hr]
          rfl
      exact hm
    · rw [readQuoted_kept hc hd,hr]
      rfl

/-- Every name has a value of one character. -/
def marked : Text → Option Text := fun _ => some ['x']

def unset : Text → Option Text := fun _ => none

/-- The second text, where there are two, is longer by at least so much. -/
def Longer (k : ℕ) (x y : Option Text) : Prop :=
  ∀ t t', x = some t → y = some t' → t.length+k ≤ t'.length

theorem Longer.map {k k' : ℕ} {x y : Option Text} {a b : Text} (h : Longer k x y)
    (hk : a.length+k' ≤ b.length+k) : Longer k' (x.map (a ++ ·)) (y.map (b ++ ·)) := by
  intro t t' ht ht'
  obtain ⟨u,hu,rfl⟩ := Option.map_eq_some_iff.mp ht
  obtain ⟨u',hu',rfl⟩ := Option.map_eq_some_iff.mp ht'
  have hl := h u u' hu hu'
  simp only [length_append]
  omega

theorem Longer.some {k : ℕ} {t t' : Text} (h : t.length+k ≤ t'.length) :
    Longer k (some t) (some t') := by
  rintro _ _ ⟨⟩ ⟨⟩
  exact h

theorem Longer.none {k : ℕ} : Longer k none none := by
  rintro _ _ ⟨⟩

/-- Characters an open expansion is worth under `marked`. -/
def pending : LabelMode → ℕ
  | .name _ => 1
  | .brace _ => 1
  | _ => 0

/-- Every expansion is longer by one when its name is set. -/
theorem longer_readQuoted (m : LabelMode) (s : Text) :
    Longer (pending m) (readQuoted letter unset m s) (readQuoted letter marked m s) := by
  have hu : ∀ name, expansion unset name = [] := fun _ => rfl
  have hm : ∀ name, expansion marked name = ['x'] := fun _ => rfl
  induction s generalizing m with
  | nil => cases m <;> exact Longer.none
  | cons c s ih =>
    cases m with
    | text =>
      simp only [readQuoted]
      split_ifs
      · exact Longer.some le_rfl
      · exact Longer.none
      · exact ih .escape
      · exact ih .dollar
      · exact (ih .text).map (a := [c]) (b := [c]) le_rfl
    | escape =>
      simp only [readQuoted]
      split_ifs
      · exact (ih .text).map (a := [c]) (b := [c]) le_rfl
      · exact (ih .text).map (a := ['\\',c]) (b := ['\\',c]) le_rfl
    | dollar =>
      simp only [readQuoted,hu,hm]
      split_ifs
      · exact fun t t' ht ht' => Nat.le_of_succ_le (ih (.brace []) t t' ht ht')
      · exact (ih .text).map (Nat.zero_le _)
      · exact fun t t' ht ht' => Nat.le_of_succ_le (ih (.name [c]) t t' ht ht')
      · exact Longer.some le_rfl
      · exact Longer.none
      · exact (ih .escape).map (a := ['$']) (b := ['$']) le_rfl
      · exact (ih .text).map (a := ['$',c]) (b := ['$',c]) le_rfl
    | name rd =>
      simp only [readQuoted,hu,hm]
      split_ifs
      · exact ih (.name (rd++[c]))
      · exact Longer.some le_rfl
      · exact Longer.none
      · exact (ih .escape).map le_rfl
      · exact (ih .dollar).map le_rfl
      · exact (ih .text).map (a := [c]) (b := ['x',c]) le_rfl
    | brace rd =>
      simp only [readQuoted,hu,hm]
      split_ifs
      · exact (ih .text).map le_rfl
      · exact ih (.brace (rd++[c]))
      · exact Longer.none

/-- An expansion is seen: its value differs between two environments. -/
theorem not_readQuoted_expansion {s t : Text} (hb : beginsExpansion letter c = true)
    (h : ∀ env, readQuoted letter env .dollar (c::s) = some t) : False := by
  have hl : Longer 1 (readQuoted letter unset .dollar (c::s))
      (readQuoted letter marked .dollar (c::s)) := by
    simp only [beginsExpansion,Bool.or_eq_true,beq_iff_eq] at hb
    simp only [readQuoted]
    split_ifs with hbr hs hn
    · exact longer_readQuoted (.brace []) s
    · exact (longer_readQuoted .text s).map le_rfl
    · exact longer_readQuoted (.name [c]) s
    all_goals simp_all
  exact Nat.not_succ_le_self _ (hl t t (h unset) (h marked))

theorem labelPlain_dollar (ih : (∀ env, readQuoted letter env .text
      (value.flatMap (escapeDebug pr)++['"']) = some value) →
        LabelPlain pr letter value) (h : ∀ env, readQuoted letter env .dollar
      (value.flatMap (escapeDebug pr)++['"']) = some ('$'::value)) :
    LabelPlain pr letter ('$'::value) := by
  have hdo : isKept pr '$' = true := rfl
  cases value with
  | nil => exact ⟨by simp [hdo],rfl⟩
  | cons d value =>
    have hbe : isKept pr d = true → beginsExpansion letter d = false := by
      intro hd
      by_contra hb
      rw [Bool.not_eq_false] at hb
      have hq : d ≠ '"' := by
        rintro rfl
        cases hb
      have hs : d ≠ '\\' := by
        rintro rfl
        cases hb
      simp only [flatMap_cons,escapeDebug_of_kept hd hq hs] at h
      exact not_readQuoted_expansion hb h
    have hp := ih fun env => by
      have hr := h env
      rw [flatMap_cons,append_assoc] at hr ⊢
      rw [readQuoted_dollar_plain _ hbe] at hr
      obtain ⟨u,hu,he⟩ := Option.map_eq_some_iff.mp hr
      rwa [(cons.inj he).2] at hu
    refine ⟨?_,?_⟩
    · simpa [hdo] using hp.1
    · have hd := hbe (hp.1 d mem_cons_self)
      simpa [dollarsPlain,hd] using hp.2

/-- Only a plain value is read back under every environment. -/
theorem labelPlain_of_readQuoted
    (h : ∀ env, readQuoted letter env .text (value.flatMap (escapeDebug pr)++['"']) =
      some value) : LabelPlain pr letter value := by
  induction value with
  | nil => exact ⟨by simp,rfl⟩
  | cons c value ih =>
    simp only [flatMap_cons,append_assoc] at h
    cases hc : isKept pr c with
    | false =>
      -- The reader's first character is the backslash of the escape.
      obtain ⟨d,t,he,hd⟩ := escapeDebug_of_not_kept hc
      have hr := h unset
      rw [he] at hr
      simp only [cons_append,readQuoted,hd] at hr
      obtain ⟨u,-,hu⟩ := Option.map_eq_some_iff.mp hr
      rw [← (cons.inj hu).1] at hc
      cases hc
    | true =>
      by_cases hd : c = '$'
      · subst hd
        have hm := h
        exact labelPlain_dollar ih hm
      · have hre := ih fun env => by
          have hr := h env
          rw [readQuoted_kept hc hd] at hr
          obtain ⟨u,hu,he⟩ := Option.map_eq_some_iff.mp hr
          rwa [(cons.inj he).2] at hu
        refine ⟨?_,?_⟩
        · simpa [hc] using hre.1
        · simpa [dollarsPlain,hd] using hre.2

theorem readLabel_debugQuote_iff {key : Text} (hk : '=' ∉ key) :
    (∀ env, readLabel letter env (key++ '='::debugQuote pr value) = some (key, value)) ↔
      LabelPlain pr letter value := by
  have hr : ∀ env, readLabel letter env (key++ '='::debugQuote pr value) =
      (readQuoted letter env .text (value.flatMap (escapeDebug pr)++['"'])).map
        fun v => (key, v) := by
    intro env
    simp only [readLabel,splitOnce_append _ hk,debugQuote,cons_append]
  simp only [hr]
  constructor
  · intro h
    refine labelPlain_of_readQuoted fun env => ?_
    obtain ⟨v,hv,he⟩ := Option.map_eq_some_iff.mp (h env)
    rwa [(Prod.mk.inj he).2] at hv
  · intro h env
    rw [readQuoted_of_plain h]
    rfl

end Cdenv.LabelText
