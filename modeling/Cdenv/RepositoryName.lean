import Cdenv.Identity
import Cdenv.JsonSize

/-!
# Workspace names of repositories

The last component of a repository's location is brought into a workspace name in one
pass that holds back the hyphen of a run of foreign characters until something follows.
The name is described without the pass: lower the letters, write a hyphen for every such
run, and trim hyphens at both ends.
-/
namespace Cdenv.RepositoryName
open TextScan Identity JsonText List

/-- The loop's state: the text so far, and whether a run of other characters is pending. -/
structure Scan where
  normalized : Text
  invalidRun : Bool

namespace Scan

/-- A pending run becomes a hyphen, except in front. -/
def flushed (s : Scan) : Text :=
  if s.invalidRun && !s.normalized.isEmpty then s.normalized++['-'] else s.normalized

def push (s : Scan) (character : Char) : Scan :=
  let c := character.toLower
  if c.isLower || c.isDigit then ⟨s.flushed++[c],false⟩
  else if c == '-' then ⟨if s.flushed.isEmpty then s.flushed else s.flushed++['-'],false⟩
  else ⟨s.normalized,true⟩

end Scan

def stripGit (component : Text) : Text :=
  if ".git".toList.isSuffixOf component then component.take (component.length-4) else component

def tryFrom (value : Text) : Option WorkspaceName :=
  if h : isWorkspaceName value = true then some ⟨value,h⟩ else none

def normalizeRepositoryComponent (component : Text) : Option WorkspaceName :=
  tryFrom (trimEndMatches '-' ((stripGit component).foldl Scan.push ⟨[],false⟩).normalized)

/-- ASCII letters, digits and hyphens. -/
def isKept (c : Char) : Bool := c.isAlphanum || c == '-'

/-- Every maximal run of other characters becomes one hyphen. -/
def hyphenateRuns : Text → Text
  | [] => []
  | c::rest =>
    if isKept c then c::hyphenateRuns rest
    else '-'::hyphenateRuns (rest.dropWhile fun c => !isKept c)
termination_by s => s.length
decreasing_by
  · exact Nat.lt_succ_self _
  · exact Nat.lt_succ_of_le (length_dropWhile_le ..)

def trimHyphens (s : Text) : Text := trimEndMatches '-' (s.dropWhile (· == '-'))

/-- The name a component stands for, whatever its length. -/
def rewritten (component : Text) : Text :=
  trimHyphens (hyphenateRuns (toAsciiLowercase (stripGit component)))

/-- What is still to be written when a run may be pending. -/
def awaited (invalidRun : Bool) (s : Text) : Text :=
  if invalidRun then '-'::hyphenateRuns (s.dropWhile fun c => !isKept c) else hyphenateRuns s

theorem awaited_nil (run : Bool) : awaited run [] = if run then ['-'] else [] := by
  cases run <;> simp [awaited,hyphenateRuns]

theorem awaited_kept {c : Char} (hc : isKept c = true) (run : Bool) (s : Text) :
    awaited run (c::s) = (if run then ['-'] else [])++c::awaited false s := by
  cases run <;> simp [awaited,hyphenateRuns,hc]

theorem awaited_other {c : Char} (hc : isKept c = false) (run : Bool) (s : Text) :
    awaited run (c::s) = awaited true s := by
  cases run <;> simp [awaited,hyphenateRuns,hc]

theorem push_cases (s : Scan) (c : Char) :
    (isKept c.toLower = true ∧ c.toLower ≠ '-' ∧ s.push c = ⟨s.flushed++[c.toLower],false⟩) ∨
      (c.toLower = '-' ∧ s.push c = ⟨if s.flushed.isEmpty then [] else s.flushed++['-'],false⟩) ∨
      isKept c.toLower = false ∧ s.push c = ⟨s.normalized,true⟩ := by
  have hu := isUpper_toLower c
  unfold Scan.push
  dsimp only
  split
  · next hp =>
    refine .inl ⟨by simp_all [isKept,Char.isAlphanum,isAlpha_eq],?_,rfl⟩
    rintro heq
    rw [heq] at hp
    exact absurd hp (by decide)
  · split
    · next hh =>
      refine .inr (.inl ⟨beq_iff_eq.mp hh,?_⟩)
      split <;> simp_all
    · exact .inr (.inr ⟨by simp_all [isKept,Char.isAlphanum,isAlpha_eq],rfl⟩)

/-- Once something is written, the loop writes what is awaited, up to trailing hyphens. -/
theorem foldl_push_append {wr : Text} (hw : wr ≠ []) (run : Bool) (s : Text) :
    trimEndMatches '-' (s.foldl Scan.push ⟨wr,run⟩).normalized =
      trimEndMatches '-' (wr++awaited run (toAsciiLowercase s)) := by
  induction s generalizing wr run with
  | nil => cases run <;> simp [toAsciiLowercase,awaited_nil,trimEndMatches,rdropWhile_concat_pos]
  | cons c s ih =>
    have hf : Scan.flushed ⟨wr,run⟩ = wr++if run then ['-'] else [] := by
      cases run <;> simp [Scan.flushed,hw]
    change _ = trimEndMatches '-' (wr++awaited run (c.toLower::toAsciiLowercase s))
    rw [foldl_cons]
    rcases push_cases ⟨wr,run⟩ c with ⟨hk,-,hp⟩ | ⟨hh,hp⟩ | ⟨ho,hp⟩
    · rw [hp,ih (by simp),hf,awaited_kept hk]
      simp
    · rw [hp,hf,hh,awaited_kept rfl]
      simp [hw,ih]
    · rw [hp,ih hw,awaited_other ho]

/-- Before anything is written, hyphens are dropped in front as well. -/
theorem foldl_push_nil (run : Bool) (s : Text) :
    trimEndMatches '-' (s.foldl Scan.push ⟨[],run⟩).normalized =
      trimHyphens (awaited run (toAsciiLowercase s)) := by
  induction s generalizing run with
  | nil => cases run <;> simp [toAsciiLowercase,awaited_nil,trimHyphens]
  | cons c s ih =>
    have hf : Scan.flushed ⟨[],run⟩ = [] := by simp [Scan.flushed]
    change _ = trimHyphens (awaited run (c.toLower::toAsciiLowercase s))
    rw [foldl_cons]
    rcases push_cases ⟨[],run⟩ c with ⟨hk,hne,hp⟩ | ⟨hh,hp⟩ | ⟨ho,hp⟩
    · rw [hp,foldl_push_append (by simp),hf,awaited_kept hk]
      cases run <;> simp [trimHyphens,hne]
    · rw [hp,hf,hh,awaited_kept rfl]
      cases run <;> simp [trimHyphens,ih]
    · rw [hp,ih,awaited_other ho]

theorem mem_hyphenateRuns {c : Char} {s : Text} (hc : c ∈ hyphenateRuns s) :
    c = '-' ∨ c ∈ s ∧ isKept c = true := by
  fun_induction hyphenateRuns s with
  | case1 => cases hc
  | case2 d xs hk ih =>
    rcases mem_cons.mp hc with rfl | hr
    · exact .inr ⟨mem_cons_self,hk⟩
    · exact (ih hr).imp_right fun h => ⟨mem_cons_of_mem _ h.1,h.2⟩
  | case3 d xs hk ih =>
    rcases mem_cons.mp hc with rfl | hr
    · exact .inl rfl
    · refine (ih hr).imp_right fun h => ⟨mem_cons_of_mem _ ?_,h.2⟩
      exact (dropWhile_sublist _).subset h.1

def isNamed (c : Char) : Bool := c.isLower || c.isDigit || c == '-'

theorem mem_rewritten {c : Char} {cmp : Text} (hc : c ∈ rewritten cmp) : isNamed c = true := by
  have hm := (dropWhile_sublist _).subset (( rdropWhile_prefix _ _).subset hc)
  rcases mem_hyphenateRuns hm with rfl | ⟨hl,hk⟩
  · rfl
  · obtain ⟨d,-,rfl⟩ := mem_map.mp hl
    simpa [isNamed,isKept,Char.isAlphanum,isAlpha_eq,isUpper_toLower] using hk

theorem val_of_isNamed {c : Char} (hc : isNamed c = true) :
    c.val ≤ 57 ∨ 97 ≤ c.val ∧ c.val ≤ 122 := by
  by_cases hh : c = '-'
  · rw [hh]
    decide
  · unfold isNamed Char.isLower Char.isDigit at hc
    grind

theorem isAlphanum_of_isNamed {c : Char} (hc : isNamed c = true) (hne : c ≠ '-') :
    c.isAlphanum = true := by
  unfold isNamed at hc
  unfold Char.isAlphanum Char.isAlpha
  grind

theorem isWorkspaceName_iff {s : Text} (hs : ∀ c ∈ s, isNamed c = true)
    (hf : s.head? ≠ some '-') (hl : s.getLast? ≠ some '-') :
    isWorkspaceName s = true ↔ s ≠ [] ∧ byteLength s ≤ 63 := by
  have hb : byteLength s = s.length := by
    refine byteLength_of_ascii fun c hc => ?_
    have hv := val_of_isNamed (hs c hc)
    grind
  cases s with
  | nil => simp [isWorkspaceName]
  | cons c xs =>
    have he : ∀ d ∈ c::xs, d ≠ '-' → d.isAlphanum = true := fun d hd =>
      isAlphanum_of_isNamed (hs d hd)
    have ha := all_eq_true.mpr hs
    have hh := he c mem_cons_self fun h => hf (congrArg some h)
    have ht := he _ (getLast_mem (cons_ne_nil c xs)) fun h => hl (congrArg some h)
    unfold isNamed at ha
    simp [isWorkspaceName,hb,hh,ht,ha,getLast?_eq_getLast_of_ne_nil]

theorem normalizeRepositoryComponent_eq (cmp : Text) :
    normalizeRepositoryComponent cmp = tryFrom (rewritten cmp) :=
  congrArg tryFrom (foldl_push_nil false (stripGit cmp))

theorem ends_trimHyphens (s : Text) :
    (trimHyphens s).head? ≠ some '-' ∧ (trimHyphens s).getLast? ≠ some '-' := by
  unfold trimHyphens trimEndMatches
  constructor
  · intro h
    obtain ⟨xs,hr⟩ := rdropWhile_prefix (· == '-') (s.dropWhile (· == '-'))
    have hh := head?_dropWhile_not (· == '-') s
    rw [← hr,head?_append,h] at hh
    cases hh
  · intro h
    have hne := ne_nil_of_mem (mem_of_getLast? h)
    rw [getLast?_eq_some_getLast hne,Option.some_inj] at h
    exact rdropWhile_last_not _ _ hne (beq_iff_eq.mpr h)

theorem trimHyphens_eq_self {s : Text} (hf : s.head? ≠ some '-')
    (hl : s.getLast? ≠ some '-') : trimHyphens s = s := by
  have hd : s.dropWhile (· == '-') = s := by
    cases s with
    | nil => rfl
    | cons c s => simpa using hf
  rw [trimHyphens,hd,trimEndMatches,rdropWhile_eq_self_iff]
  intro hne hh
  rw [getLast?_eq_some_getLast hne,beq_iff_eq.mp hh] at hl
  exact hl rfl

theorem hyphenateRuns_eq_self {s : Text} (hs : ∀ c ∈ s, isKept c = true) : hyphenateRuns s = s := by
  induction s with
  | nil => simp [hyphenateRuns]
  | cons c s ih =>
    rw [hyphenateRuns,if_pos (hs c mem_cons_self),ih fun d hd => hs d (mem_cons_of_mem c hd)]

theorem rewritten_name (n : WorkspaceName) : rewritten n.value = n.value := by
  have hv := n.valid
  simp only [isWorkspaceName,Bool.and_eq_true,all_eq_true] at hv
  obtain ⟨⟨⟨hf,hl⟩,ha⟩,-⟩ := hv
  have hg : stripGit n.value = n.value := by
    refine if_neg fun hs => ?_
    have hd := ha '.' ((isSuffixOf_iff_suffix.mp hs).subset (by decide))
    exact absurd hd (by decide)
  have hlo : toAsciiLowercase n.value = n.value := by
    refine (map_congr_left fun c hc => ?_).trans (map_id _)
    have hva := val_of_isNamed (ha c hc)
    unfold Char.toLower
    grind
  have hk : ∀ c ∈ n.value, isKept c = true := fun c hc => by
    unfold isKept Char.isAlphanum Char.isAlpha
    grind
  rw [rewritten,hg,hlo,hyphenateRuns_eq_self hk]
  refine trimHyphens_eq_self (fun h => ?_) fun h => ?_
  · rw [h] at hf
    exact absurd hf (by decide)
  · rw [h] at hl
    exact absurd hl (by decide)

/-- A component's name is its rewriting where that is a name by its length. -/
theorem normalizeRepositoryComponent_rewrites (component : Text) :
    (normalizeRepositoryComponent component).map WorkspaceName.value =
        (if rewritten component ≠ [] ∧ byteLength (rewritten component) ≤ 63 then
          some (rewritten component) else none) ∧
      (∀ name, normalizeRepositoryComponent component = some name →
        isWorkspaceName name.value = true) ∧
      ∀ name : WorkspaceName, normalizeRepositoryComponent name.value = some name := by
  refine ⟨?_,fun name _ => name.valid,fun name => ?_⟩
  · have hn : isWorkspaceName (rewritten component) = true ↔ _ :=
      isWorkspaceName_iff (fun c => mem_rewritten) (ends_trimHyphens _).1 (ends_trimHyphens _).2
    rw [normalizeRepositoryComponent_eq,tryFrom]
    split_ifs <;> simp_all
  · rw [normalizeRepositoryComponent_eq,rewritten_name,tryFrom,dif_pos name.valid]

end Cdenv.RepositoryName
