import Cdenv.TextScan

/-!
# Interpolation of variables

In a text `$$` is a dollar sign, `$NAME` and `${NAME}` stand for a variable, and any other
dollar sign is an error.
-/
namespace Cdenv.Interpolation
open TextScan

abbrev Environment := Text → Option Text

/-- Outside an expression, behind a dollar sign, in a bare name, or between braces. -/
inductive Mode where
  | text | dollar
  | name (read : Text)
  | brace (read : Text)

section
variable (env : Environment)

def valueOf (name : Text) : Text := (env name).getD []

/-- `none` where a dollar sign stands for nothing. -/
def scan : Mode → Text → Option Text
  | .text, [] => some []
  | .text, c::s => if c = '$' then scan .dollar s else (scan .text s).map (c :: ·)
  | .dollar, [] => none
  | .dollar, c::s =>
    if c = '$' then (scan .text s).map ('$' :: ·)
    else if c = '\x7b' then scan (.brace []) s
    else if isNameStart c then scan (.name [c]) s
    else none
  | .name read, [] => some (valueOf env read)
  | .name read, c::s =>
    if isNameChar c then scan (.name (read++[c])) s
    else if c = '$' then (scan .dollar s).map (valueOf env read ++ ·)
    else (scan .text s).map fun t => valueOf env read++c::t
  | .brace _, [] => none
  | .brace read, c::s =>
    if c = '\x7d' then
      if isName read then (scan .text s).map (valueOf env read ++ ·) else none
    else scan (.brace (read++[c])) s

def interpolate (s : Text) : Option Text := scan env .text s

end

def unset : Environment := fun _ => none

variable {s : Text}

theorem scan_of_not_mem (env : Environment) (h : '$' ∉ s) : scan env .text s = some s := by
  induction s with
  | nil => rfl
  | cons c s ih =>
    simp only [List.mem_cons,not_or] at h
    rw [scan,if_neg (Ne.symm h.1),ih h.2]
    rfl

/-- With nothing set, an expression never grows. -/
theorem length_scan_unset {mode : Mode} {t : Text} (h : scan unset mode s = some t) :
    t.length ≤ s.length := by
  have hv : ∀ name, valueOf unset name = [] := fun _ => rfl
  induction s generalizing mode t with
  | nil =>
    cases mode <;> simp_all [scan]
  | cons c s ih =>
    cases mode with
    | text =>
      simp only [scan] at h
      split_ifs at h
      · exact (ih h).trans (Nat.le_succ _)
      · obtain ⟨t,ht,rfl⟩ := Option.map_eq_some_iff.mp h
        exact Nat.succ_le_succ (ih ht)
    | dollar =>
      simp only [scan] at h
      split_ifs at h
      · obtain ⟨t,ht,rfl⟩ := Option.map_eq_some_iff.mp h
        exact Nat.succ_le_succ (ih ht)
      all_goals exact (ih h).trans (Nat.le_succ _)
    | name rd =>
      simp only [scan,hv,List.nil_append] at h
      split_ifs at h
      · exact (ih h).trans (Nat.le_succ _)
      · obtain ⟨t,ht,rfl⟩ := Option.map_eq_some_iff.mp h
        exact (ih ht).trans (Nat.le_succ _)
      · obtain ⟨t,ht,rfl⟩ := Option.map_eq_some_iff.mp h
        exact Nat.succ_le_succ (ih ht)
    | brace rd =>
      simp only [scan,hv,List.nil_append] at h
      split_ifs at h
      · obtain ⟨t,ht,rfl⟩ := Option.map_eq_some_iff.mp h
        exact (ih ht).trans (Nat.le_succ _)
      · exact (ih h).trans (Nat.le_succ _)

theorem length_interpolate_unset {t : Text} (h : interpolate unset s = some t) (hd : '$' ∈ s) :
    t.length < s.length := by
  induction s generalizing t with
  | nil => simp at hd
  | cons c s ih =>
    simp only [interpolate,scan] at h
    split_ifs at h with hc
    · exact Nat.lt_succ_of_le (length_scan_unset h)
    · obtain ⟨t,ht,rfl⟩ := Option.map_eq_some_iff.mp h
      have hs : '$' ∈ s := by simpa [Ne.symm hc] using hd
      exact Nat.succ_lt_succ (ih ht hs)

/-- A text is left alone by the empty environment exactly when it holds no dollar sign. -/
theorem interpolate_unset_eq_self : interpolate unset s = some s ↔ '$' ∉ s := by
  constructor
  · intro h hd
    exact Nat.lt_irrefl _ (length_interpolate_unset h hd)
  · exact scan_of_not_mem unset

theorem interpolate_of_not_mem (env : Environment) (h : '$' ∉ s) : interpolate env s = some s :=
  scan_of_not_mem env h

theorem isSome_scan (env env' : Environment) (mode : Mode) (s : Text) :
    (scan env mode s).isSome = (scan env' mode s).isSome := by
  induction s generalizing mode with
  | nil => cases mode <;> rfl
  | cons c s ih =>
    cases mode <;> simp only [scan] <;> split_ifs <;>
      simp only [Option.isSome_map,Option.isSome_none,ih]

/-- Whether a text is well formed does not depend on the environment. -/
theorem isSome_interpolate (env env' : Environment) (s : Text) :
    (interpolate env s).isSome = (interpolate env' s).isSome :=
  isSome_scan env env' .text s

end Cdenv.Interpolation
