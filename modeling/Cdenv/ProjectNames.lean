import Cdenv.ComposePlanning
import Cdenv.Identity

/-!
# Compose project names

A project name spells the words of an installation identity and a workspace name, in lowercase and
with one hyphen between any two: runs of other characters, the case and the place where the
identity ends and the name begins are lost. So two pairs share a name if their words agree, or if
one of them spells what the other is cut to; collisions of the digest aside, there is no third
way.
-/
namespace Cdenv.ComposePlanning
open TextScan Identity List

def isWordChar (c : Char) : Bool := c.isLower || c.isDigit

def IsWord (word : Text) : Prop := word ≠ [] ∧ ∀ c ∈ word, isWordChar c

/-- The word that has begun, and those that follow. -/
def wordsFrom (current : Text) : Text → List Text
  | [] => if current = [] then [] else [current]
  | c::s =>
    if c.isAlphanum then wordsFrom (current++[c]) s
    else (if current = [] then [] else [current])++wordsFrom [] s

def words (value : Text) : List Text := wordsFrom [] (value.flatMap toLowercase)

theorem isWordChar_toLower {c : Char} (h : c.isAlphanum ∨ c.toLower.isAlphanum) :
    isWordChar c.toLower := by
  have hu := isUpper_toLower c
  rcases toLower_cases c with hc | hc
  · rw [hc] at h hu ⊢
    simpa [isWordChar,Char.isAlphanum,isAlpha_eq,hu] using h
  · simp [isWordChar,hc]

theorem isWordChar_of_mem_toLowercase {c d : Char} (hd : d ∈ toLowercase c)
    (h : d.isAlphanum) : isWordChar d := by
  unfold toLowercase at hd
  split_ifs at hd
  · rcases mem_pair.mp hd with rfl | rfl
    · rfl
    · exact absurd h (by decide)
  · rw [mem_singleton.mp hd]
    rfl
  · rw [mem_singleton.mp hd] at h ⊢
    exact isWordChar_toLower (.inr h)

variable {cur v : Text}

theorem isWord_wordsFrom {s : Text} (hcu : ∀ c ∈ cur, isWordChar c)
    (hs : ∀ c ∈ s, c.isAlphanum → isWordChar c) : ∀ word ∈ wordsFrom cur s, IsWord word := by
  induction s generalizing cur with
  | nil => grind [wordsFrom,IsWord]
  | cons c s ih =>
    have hr := (forall_mem_cons.mp hs).2
    unfold wordsFrom
    split_ifs with hc hn
    · exact ih (forall_mem_append.mpr ⟨hcu,forall_mem_singleton.mpr (hs c mem_cons_self hc)⟩) hr
    · exact ih (by simp) hr
    · exact forall_mem_cons.mpr ⟨⟨hn,hcu⟩,ih (by simp) hr⟩

theorem wordsFrom_ne_nil {s : Text} (h : cur ≠ [] ∨ ∃ c ∈ s, c.isAlphanum) :
    wordsFrom cur s ≠ [] := by
  induction s generalizing cur with
  | nil => simpa [wordsFrom] using h
  | cons c s ih =>
    unfold wordsFrom
    split_ifs with hc hn
    · exact ih (.inl (by simp))
    · exact ih (.inr (by simpa [hc,hn] using h))
    · simp

theorem isWord_words : ∀ word ∈ words v, IsWord word := by
  refine isWord_wordsFrom (by simp) fun d hd h => ?_
  obtain ⟨c,-,hd⟩ := mem_flatMap.mp hd
  exact isWordChar_of_mem_toLowercase hd h

theorem words_ne_nil (h : v.head?.any Char.isAlphanum) : words v ≠ [] := by
  cases v with
  | nil => cases h
  | cons c s =>
    have hc : c.isAlphanum = true := h
    have hl : toLowercase c = [c.toLower] := by
      unfold toLowercase
      rw [if_neg,if_neg] <;> rintro rfl <;> exact absurd hc (by decide)
    have hw := isWordChar_toLower (.inl hc)
    refine wordsFrom_ne_nil (.inr ⟨c.toLower,by simp [hl],?_⟩)
    simp_all [isWordChar,Char.isAlphanum,isAlpha_eq,or_assoc]

/-- Words that are complete, each with the hyphen after it. -/
def spelled (complete : List Text) : Text := complete.flatMap (· ++ ['-'])

theorem spelled_append (comp : List Text) (w : Text) :
    spelled comp++w = ['-'].intercalate (comp++[w]) := by
  induction comp with
  | nil => simp [spelled]
  | cons fst comp ih =>
    rw [cons_append]
    cases comp <;> simp_all [spelled,intercalate_cons_cons]

theorem trim_word {word : Text} (h : IsWord word) (bef : Text) :
    trimEndMatches '-' (bef++word) = bef++word := by
  obtain ⟨xs,l,rfl⟩ := (eq_nil_or_concat word).resolve_left h.1
  have hl := h.2 l (by simp)
  rw [concat_eq_append,← append_assoc]
  refine rdropWhile_concat_neg _ _ _ fun heq => ?_
  rw [beq_iff_eq.mp heq] at hl
  exact absurd hl (by decide)

def safeStep (output : Text) (c : Char) : Text :=
  if c.isAlphanum then output++[c]
  else if output.isEmpty || output.getLast? == some '-' then output
  else output++['-']

/-- A separator ends the word that has begun, if there is one. -/
theorem safeStep_separator {comp : List Text} {c : Char}
    (hcu : ∀ c ∈ cur, isWordChar c) (hc : c.isAlphanum = false) :
    safeStep (spelled comp++cur) c = spelled (comp++if cur = [] then [] else [cur]) := by
  unfold safeStep
  rcases eq_nil_or_concat cur with rfl | ⟨xs,l,rfl⟩
  · rcases eq_nil_or_concat comp with rfl | ⟨comp,w,rfl⟩ <;> simp [hc,spelled]
  · have hne : l ≠ '-' := by
      rintro rfl
      exact absurd (hcu '-' (by simp)) (by decide)
    simp [hc,hne,spelled]

theorem trim_foldl {comp : List Text} {cur s : Text}
    (hco : ∀ w ∈ comp, IsWord w) (hcu : ∀ c ∈ cur, isWordChar c)
    (hs : ∀ c ∈ s, c.isAlphanum → isWordChar c) :
    trimEndMatches '-' (s.foldl safeStep (spelled comp++cur)) =
      ['-'].intercalate (comp++wordsFrom cur s) := by
  induction s generalizing comp cur with
  | nil =>
    rw [foldl_nil]
    unfold wordsFrom
    split_ifs with hn
    · subst hn
      rcases eq_nil_or_concat comp with rfl | ⟨comp,w,rfl⟩
      · rfl
      · have hw := hco w (by simp)
        have hh : spelled (comp.concat w)++[] = spelled comp++w++['-'] := by
          simp [spelled]
        rw [hh,trimEndMatches,rdropWhile_concat_pos _ _ _ rfl]
        simpa [trimEndMatches,spelled_append] using trim_word hw (spelled comp)
    · rw [trim_word ⟨hn,hcu⟩,spelled_append]
  | cons c s ih =>
    have hr := (forall_mem_cons.mp hs).2
    rw [foldl_cons]
    by_cases hc : c.isAlphanum
    · rw [wordsFrom,if_pos hc,safeStep,if_pos hc,append_assoc]
      exact ih hco (forall_mem_append.mpr ⟨hcu,forall_mem_singleton.mpr (hs c mem_cons_self hc)⟩) hr
    · rw [wordsFrom,if_neg hc,safeStep_separator hcu (by simpa using hc),
        ← append_nil (spelled _),ih _ (by simp) hr,append_assoc]
      intro w hw
      rcases mem_append.mp hw with hw | hw
      · exact hco w hw
      · split_ifs at hw with hn
        · cases hw
        · exact mem_singleton.mp hw ▸ ⟨hn,hcu⟩

theorem intercalate_ne_nil {ws : List Text} (h : ws ≠ []) (hws : ∀ w ∈ ws, IsWord w) :
    ['-'].intercalate ws ≠ [] := by
  obtain ⟨xs,l,rfl⟩ := (eq_nil_or_concat ws).resolve_left h
  rw [concat_eq_append,← spelled_append]
  exact append_ne_nil_of_right_ne_nil _ (hws l (by simp)).1

theorem safeProjectComponent_eq (h : words v ≠ []) :
    safeProjectComponent v = ['-'].intercalate (words v) := by
  have ht : trimEndMatches '-' ((v.flatMap toLowercase).foldl safeStep []) =
      ['-'].intercalate (words v) := by
    refine @trim_foldl [] [] _ (by simp) (by simp) fun d hd h => ?_
    obtain ⟨c,-,hd⟩ := mem_flatMap.mp hd
    exact isWordChar_of_mem_toLowercase hd h
  change (if (trimEndMatches '-' ((v.flatMap toLowercase).foldl safeStep [])).isEmpty
    then ['x'] else trimEndMatches '-' ((v.flatMap toLowercase).foldl safeStep [])) = _
  rw [ht,if_neg]
  simpa using intercalate_ne_nil h isWord_words

theorem intercalate_append {ws vs : List Text} (hws : ws ≠ []) (hvs : vs ≠ []) :
    ['-'].intercalate (ws++vs) = ['-'].intercalate ws++ '-'::['-'].intercalate vs := by
  induction ws with
  | nil => exact absurd rfl hws
  | cons w ws ih =>
    cases ws with
    | nil =>
      cases vs with
      | nil => exact absurd rfl hvs
      | cons fst vs => simp [intercalate_cons_cons]
    | cons next ws =>
      simp_all [intercalate_cons_cons]

def joined (installation : IdentityToken) (workspace : WorkspaceName) : Text :=
  ['-'].intercalate ("cdenv"::(words installation.value++words workspace.value))

/-- A name over the limit is cut and given a part of its digest. -/
def cut (sha256Hex : Text → Text) (name : Text) : Text :=
  (name.take 50).rdropWhile (fun c => c == '-' || c == '_')++ '-'::(sha256Hex name).take 12

section names
variable {sha256Hex : Text → Text} {installation installation' inst : IdentityToken}
  {workspace workspace' : WorkspaceName} {ws : WorkspaceName}

theorem words_installation : words inst.value ≠ [] := by
  have hv := inst.valid
  simp only [isIdentityToken,Bool.and_eq_true] at hv
  exact words_ne_nil hv.1.1

theorem words_workspace : words ws.value ≠ [] := by
  have hv := ws.valid
  simp only [isWorkspaceName,Bool.and_eq_true] at hv
  exact words_ne_nil hv.1.1.1

theorem joined_eq : joined inst ws = "cdenv-" ++
    safeProjectComponent inst.value++ '-'::safeProjectComponent ws.value := by
  have ha := @intercalate_append ["cdenv"]
    (words inst.value++words ws.value) (by simp) (by simp [words_installation])
  rw [intercalate_append words_installation words_workspace] at ha
  rw [safeProjectComponent_eq words_installation,safeProjectComponent_eq words_workspace]
  exact ha.trans (by simp)

theorem composeProjectName_eq : composeProjectName sha256Hex inst.value ws.value =
      if (joined inst ws).length ≤ 63 then joined inst ws
      else cut sha256Hex (joined inst ws) := by
  rw [joined_eq]
  rfl

theorem isWord_joined : ∀ word ∈ "cdenv".toList ::
    (words inst.value++words ws.value), IsWord word := by
  refine forall_mem_cons.mpr ⟨⟨by decide,all_iff_forall_prop.mp (by decide)⟩,fun word hw => ?_⟩
  rcases mem_append.mp hw with hw | hw <;> exact isWord_words word hw

theorem joined_inj : joined inst ws = joined installation' workspace' ↔
    words inst.value++words ws.value = words installation'.value++words workspace'.value := by
  constructor
  · intro h
    have hw (i : IdentityToken) (w : WorkspaceName) : (joined i w).splitOn '-' =
        "cdenv".toList::(words i.value++words w.value) := by
      refine splitOn_intercalate '-' (fun wd hwo hm => ?_) (cons_ne_nil _ _)
      exact absurd ((isWord_joined wd hwo).2 '-' hm) (by decide)
    have hs := congrArg (splitOn '-') h
    rw [hw,hw] at hs
    exact (cons.inj hs).2
  · intro h
    rw [joined,joined,h]

/-- A digest as it is printed. -/
def IsHexDigest (text : Text) : Prop := text.length = 64 ∧ ∀ c ∈ text, isWordChar c

/-- The rule of Compose, with the limit of cdenv. -/
def IsProjectName (name : Text) : Prop :=
  name.length ≤ 63 ∧ name.head?.any isWordChar ∧ ∀ c ∈ name, isWordChar c ∨ c = '-' ∨ c = '_'

theorem isProjectName_cut (hd : ∀ t, IsHexDigest (sha256Hex t)) {xs : Text}
    (hch : ∀ c ∈ 'c'::xs, isWordChar c ∨ c = '-') :
    IsProjectName (cut sha256Hex ('c'::xs)) := by
  have hk : (('c'::xs).take 50).rdropWhile (fun c => c == '-' || c == '_') <+:
      ('c'::xs).take 50 := rdropWhile_prefix _ _
  rcases prefix_cons_iff.mp hk with hn | ⟨fr,hf,-⟩
  · exact absurd (rdropWhile_eq_nil_iff.mp hn 'c' mem_cons_self) (by decide)
  · unfold cut
    rw [hf]
    have hl := hf ▸ hk.length_le.trans (length_take_le _ _)
    refine ⟨?_,rfl,fun c hc => ?_⟩
    · simp only [length_append,length_cons,length_take] at hl ⊢
      omega
    · rcases mem_append.mp hc with hc | hc
      · exact (hch c (mem_of_mem_take (hk.mem (hf ▸ hc)))).imp_right .inl
      · rcases mem_cons.mp hc with rfl | hc
        · exact .inr (.inl rfl)
        · exact .inl ((hd _).2 c (mem_of_mem_take hc))

theorem isProjectName_composeProjectName (hd : ∀ t, IsHexDigest (sha256Hex t)) :
    IsProjectName (composeProjectName sha256Hex inst.value ws.value) := by
  have hch : ∀ c ∈ joined inst ws, isWordChar c ∨ c = '-' := by
    intro c hc
    by_cases hhy : c = '-'
    · exact .inr hhy
    · obtain ⟨w,hw,hm⟩ := (mem_intercalate hhy).mp hc
      exact .inl ((isWord_joined w hw).2 c hm)
  obtain ⟨rest,hh⟩ : ∃ rest, joined inst ws = 'c'::rest := ⟨_,joined_eq⟩
  rw [composeProjectName_eq]
  split_ifs with hl
  · refine ⟨hl,by rw [hh]; rfl,fun c hc => ?_⟩
    exact (hch c hc).imp_right .inl
  · rw [hh] at hch ⊢
    exact isProjectName_cut hd hch

/-- One name is short enough and spells what the other is cut to. -/
def Shadows (sha256Hex : Text → Text) (name other : Text) : Prop :=
  name.length ≤ 63 ∧ 63 < other.length ∧ name = cut sha256Hex other

theorem cut_inj (hd : ∀ t, IsHexDigest (sha256Hex t)) {n b : Text}
    (h : cut sha256Hex n = cut sha256Hex b) :
    (sha256Hex n).take 12 = (sha256Hex b).take 12 := by
  have hl : ((sha256Hex n).take 12).length = ((sha256Hex b).take 12).length := by
    simp [(hd n).1,(hd b).1]
  have hc := (append_inj' h (by simpa using hl)).2
  exact (cons.inj hc).2

/-- Two pairs have names of their own exactly if they differ in their words and neither spells
what the other is cut to. -/
theorem composeProjectName_distinct_iff (hdigest : ∀ text, IsHexDigest (sha256Hex text))
    (hcollision : (sha256Hex (joined installation workspace)).take 12 =
        (sha256Hex (joined installation' workspace')).take 12 →
      joined installation workspace = joined installation' workspace') :
    (IsProjectName (composeProjectName sha256Hex installation.value workspace.value) ∧
        composeProjectName sha256Hex installation.value workspace.value ≠
          composeProjectName sha256Hex installation'.value workspace'.value) ↔
      words installation.value++words workspace.value ≠
          words installation'.value++words workspace'.value ∧
        ¬Shadows sha256Hex (joined installation workspace) (joined installation' workspace') ∧
        ¬Shadows sha256Hex (joined installation' workspace') (joined installation workspace) := by
  rw [and_iff_right (isProjectName_composeProjectName hdigest),composeProjectName_eq,
    composeProjectName_eq,Ne,Ne,← joined_inj]
  generalize joined installation workspace = name at hcollision ⊢
  generalize joined installation' workspace' = other at hcollision ⊢
  unfold Shadows
  split_ifs with hn ho ho
  · simp [hn,ho]
  · have hne : name ≠ other := fun h => ho (h ▸ hn)
    simp [hn,not_le.mp ho,ho,hne]
  · have hne : name ≠ other := fun h => hn (h ▸ ho)
    simp [hn,not_le.mp hn,ho,hne,eq_comm]
  · have hc : cut sha256Hex name = cut sha256Hex other ↔ name = other :=
      ⟨fun h => hcollision (cut_inj hdigest h),fun h => h ▸ rfl⟩
    simp [hc,hn,ho]

end names

/-- A digest that tells two names apart. -/
def sampleDigest (text : Text) : Text :=
  List.replicate 64 (if text = "cdenv-a-b" then '0' else '1')

theorem composeProjectName_distinct_plain :
    IsProjectName (composeProjectName sampleDigest "a" "b") ∧
      composeProjectName sampleDigest "a" "b" ≠ composeProjectName sampleDigest "a" "c" := by
  refine (@composeProjectName_distinct_iff sampleDigest ⟨"a",by decide⟩
    ⟨"a",by decide⟩ ⟨"b",by decide⟩ ⟨"c",by decide⟩ ?_ ?_).mpr ?_
  · intro t
    unfold IsHexDigest sampleDigest
    split_ifs <;> exact ⟨rfl,all_iff_forall_prop.mp (by decide)⟩
  · decide
  · refine ⟨by decide,?_,?_⟩ <;> exact fun h => absurd h.2.1 (by decide)

/-- Two hyphens are written as one. -/
theorem composeProjectName_hyphens :
    isWorkspaceName "a-b" ∧ isWorkspaceName "a--b" ∧
      composeProjectName sampleDigest "a" "a-b" =
        composeProjectName sampleDigest "a" "a--b" := by
  decide

end Cdenv.ComposePlanning
