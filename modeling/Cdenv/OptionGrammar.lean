import Cdenv.TextScan

/-!
# Command-line option grammar

The reader of an argument vector in the POSIX/GNU style: long options `--x`, `--x v` and `--x=v`,
clusters of shorthands in which switches may precede one option with a value, and options only up
to the first other argument. The table of options is a parameter.

The rules are `confined_append_iff`, by which a leading part of a vector keeps to itself
or not whatever follows it, and `readAll_append` and `readAll_write`, by which complete
options are read one part after the other and written options are read back.
-/
namespace Cdenv.OptionGrammar
open TextScan List

inductive Arity where
  | switch | valued
deriving DecidableEq

structure OptionTable where
  long : Text → Option Arity
  /-- The long name of a shorthand. -/
  short : Char → Option Text

/-- One assignment. A bare switch has no value. -/
structure Setting where
  option : Text
  value : Option Text
  shorthand : Bool

inductive Ending where
  | complete
  | awaiting (option : Text) (shorthand : Bool)
  | unreadable

inductive Reading where
  | positional | terminator
  | option (settings : List Setting) (ending : Ending)

/-- What one option argument contributed. -/
structure Occurrence where
  index : ℕ
  settings : List Setting
  takesNext : Bool

structure Parsed where
  occurrences : List Occurrence
  /-- Where the first positional argument stands. -/
  positional : Option ℕ
  /-- The last option found no argument left for its value. -/
  missing : Bool

namespace Parsed

def cons (o : Occurrence) (p : Parsed) : Parsed := ⟨o::p.occurrences,p.positional,p.missing⟩

/-- Everything was read as complete options. -/
def Closed (p : Parsed) : Prop := p.positional = none ∧ p.missing = false

/-- The first `n` arguments make permitted settings only, take no value from behind
them and hold no positional argument. -/
def Confined (permitted : Setting → Prop) (n : ℕ) (p : Parsed) : Prop :=
  (∀ o ∈ p.occurrences, o.index < n →
    (∀ s ∈ o.settings, permitted s) ∧ (o.takesNext = true → o.index+1 < n)) ∧
  ∀ k ∈ p.positional, n ≤ k

instance (permitted : Setting → Prop) [DecidablePred permitted] (n : ℕ) (p : Parsed) :
    Decidable (p.Confined permitted n) :=
  inferInstanceAs (Decidable (_ ∧ _))

instance (p : Parsed) : Decidable p.Closed := inferInstanceAs (Decidable (_ ∧ _))

end Parsed

section
variable (table : OptionTable)

def readLong (name : Text) : Reading :=
  match splitOnce '=' name with
  | some (option, value) =>
    match table.long option with
    | some _ => .option [⟨option,some value,false⟩] .complete
    | none => .option [] .unreadable
  | none =>
    match table.long name with
    | some .switch => .option [⟨name,none,false⟩] .complete
    | some .valued => .option [] (.awaiting name false)
    | none => .option [] .unreadable

def readCluster : Text → List Setting × Ending
  | [] => ([], .complete)
  | c::rest =>
    match table.short c with
    | none => ([], .unreadable)
    | some option =>
      if 2 ≤ rest.length ∧ rest.head? = some '=' then
        ([⟨option,some rest.tail,true⟩], .complete)
      else
        match table.long option with
        | none => ([], .unreadable)
        | some .switch => (⟨option,none,true⟩::(readCluster rest).1, (readCluster rest).2)
        | some .valued =>
          if rest = [] then ([], .awaiting option true)
          else ([⟨option,some rest,true⟩], .complete)

def read : Text → Reading
  | ['-','-'] => .terminator
  | '-':: '-'::name => readLong table name
  | ['-'] => .positional
  | '-'::cluster => .option (readCluster table cluster).1 (readCluster table cluster).2
  | _ => .positional

/-- Options are set in reading order, and reading stops at the first positional argument, at `--`,
or at an argument the table cannot explain. -/
def parse : ℕ → List Text → Parsed
  | _, [] => ⟨[],none,false⟩
  | i, argument::rest =>
    match read table argument with
    | .positional => ⟨[],some i,false⟩
    | .terminator => ⟨[],if rest = [] then none else some (i+1),false⟩
    | .option settings .unreadable => ⟨[⟨i,settings,false⟩],none,false⟩
    | .option settings .complete => (parse (i+1) rest).cons ⟨i,settings,false⟩
    | .option settings (.awaiting option shorthand) =>
      match rest with
      | [] => ⟨[⟨i,settings,false⟩],none,true⟩
      | value::rest =>
        (parse (i+2) rest).cons
          ⟨i,settings++[⟨option,some value,shorthand⟩],true⟩

/-- The settings of a vector that is complete options from end to end. -/
def readAll : List Text → Option (List Setting)
  | [] => some []
  | argument::rest =>
    match read table argument with
    | .option settings .complete => (readAll rest).map (settings ++ ·)
    | .option settings (.awaiting option shorthand) =>
      match rest with
      | [] => none
      | value::rest =>
        (readAll rest).map ((settings++[⟨option,some value,shorthand⟩]) ++ ·)
    | _ => none

end

section
variable {table : OptionTable} {permitted : Setting → Prop}

/-- Reading starts at its index and never goes back. -/
theorem parse_index_le (table : OptionTable) (i : ℕ) (args : List Text) :
    (∀ o ∈ (parse table i args).occurrences, i ≤ o.index) ∧
      ∀ k ∈ (parse table i args).positional, i ≤ k := by
  fun_induction parse table i args with
  | case1 i | case2 i arg xs h => simp
  | case3 i arg xs h => split_ifs <;> simp
  | case4 i arg xs settings h => simp
  | case5 i arg xs settings h ih =>
    refine ⟨?_,fun k hk => (ih.2 k hk).trans' (Nat.le_succ i)⟩
    intro o ho
    rcases mem_cons.mp ho with rfl | ho
    · exact le_rfl
    · exact (ih.1 o ho).trans' (Nat.le_succ i)
  | case6 i arg settings opt sh h => simp
  | case7 i arg settings opt sh h v xs ih =>
    refine ⟨?_,fun k hk => (ih.2 k hk).trans' (Nat.le_add_right i 2)⟩
    intro o ho
    rcases mem_cons.mp ho with rfl | ho
    · exact le_rfl
    · exact (ih.1 o ho).trans' (Nat.le_add_right i 2)

/-- Behind the boundary nothing counts. -/
theorem confined_zero (i : ℕ) (args : List Text) : (parse table i args).Confined permitted i := by
  obtain ⟨hi,hp⟩ := parse_index_le table i args
  exact ⟨fun o ho hlt => absurd (hi o ho) (Nat.not_le.mpr hlt),hp⟩

theorem confined_cons {n : ℕ} {o : Occurrence} {p : Parsed} (h : o.index < n) :
    (p.cons o).Confined permitted n ↔
      (∀ s ∈ o.settings, permitted s) ∧ (o.takesNext = true → o.index+1 < n) ∧
        p.Confined permitted n := by
  simp only [Parsed.Confined,Parsed.cons,forall_mem_cons,h,forall_true_left,and_assoc]

/-- Whether the leading arguments keep to themselves can be read off them alone. -/
theorem confined_append_iff (table : OptionTable) (permitted : Setting → Prop) {more : List Text}
    (hm : more ≠ []) (i : ℕ) (args : List Text) :
    (parse table i (args++more)).Confined permitted (i+args.length) ↔ (parse table i args).Closed ∧
        ∀ o ∈ (parse table i args).occurrences, ∀ s ∈ o.settings, permitted s := by
  fun_induction parse table i args with
  | case1 i =>
    simp only [nil_append,length_nil,Nat.add_zero,confined_zero,true_iff]
    exact ⟨⟨rfl,rfl⟩,by simp⟩
  | case2 i arg xs h =>
    simp [parse,h,Parsed.Confined,Parsed.Closed]
  | case3 i arg xs h =>
    by_cases hr : xs = []
    · simp [parse,h,Parsed.Confined,Parsed.Closed,hr,hm]
    · have hl : xs.length ≠ 0 := by simpa using hr
      simp [parse,h,Parsed.Confined,Parsed.Closed,hr,hm]
  | case4 i arg xs settings h =>
    simp [parse,h,Parsed.Confined,Parsed.Closed]
  | case5 i arg xs settings h ih =>
    have hn : i+(arg::xs).length = i+1+xs.length := by
      simp only [length_cons]; omega
    simp only [cons_append,parse,h,hn]
    rw [confined_cons (by simp only; omega),ih]
    simp only [Parsed.Closed,Parsed.cons,forall_mem_cons]
    tauto
  | case6 i arg settings opt sh h =>
    obtain ⟨v,tl,rfl⟩ := exists_cons_of_ne_nil hm
    simp only [cons_append,nil_append,parse,h]
    rw [confined_cons (by simp)]
    simp [Parsed.Closed]
  | case7 i arg settings opt sh h v xs ih =>
    have hn : i+(arg::v::xs).length = i+2+xs.length := by
      simp only [length_cons]; omega
    simp only [cons_append,parse,h,hn]
    rw [confined_cons (by simp only; omega),ih]
    simp only [Parsed.Closed,Parsed.cons,forall_mem_cons]
    have hne : i+1 < i+2+xs.length := by omega
    tauto

def dashes (name : Text) : Text := '-':: '-'::name

/-- The three spellings of a long setting; `next` is the following argument. -/
inductive WrittenLong (argument : Text) (next : Option Text) (s : Setting) : Prop where
  | bare (h : argument = dashes s.option) (hv : s.value = none)
  | separate (v : Text) (h : argument = dashes s.option) (hn : next = some v) (hv : s.value = some v)
  | attached (v : Text) (h : argument = dashes (s.option++ '='::v)) (hv : s.value = some v)

theorem readCluster_shorthand (table : OptionTable) (cluster : Text) :
    (∀ s ∈ (readCluster table cluster).1, s.shorthand = true) ∧
      ∀ opt, (readCluster table cluster).2 ≠ .awaiting opt false := by
  fun_induction readCluster table cluster <;> simp_all

variable {settings : List Setting} {args : List Text}

theorem readLong_written {n : Text} {ending : Ending}
    (h : readLong table n = .option settings ending) :
    (∀ s ∈ settings, ∀ next, WrittenLong (dashes n) next s) ∧
      ∀ option sh, ending = .awaiting option sh → n = option := by
  unfold readLong at h
  split at h
  · next option v hs =>
    obtain ⟨rfl,-⟩ := splitOnce_spec hs
    split at h <;> cases h
    · refine ⟨?_,by simp⟩
      intro s hs next
      obtain rfl := mem_singleton.mp hs
      exact .attached v rfl rfl
    · simp
  · split at h <;> cases h
    · refine ⟨?_,by simp⟩
      intro s hs next
      obtain rfl := mem_singleton.mp hs
      exact .bare rfl rfl
    all_goals simp

theorem read_written {arg : Text} {ending : Ending} (h : read table arg = .option settings ending) :
    (∀ s ∈ settings, s.shorthand = false → ∀ next, WrittenLong arg next s) ∧
      ∀ option, ending = .awaiting option false → arg = dashes option := by
  unfold read at h
  split at h
  · cases h
  · next n hn =>
    obtain ⟨hs,ha⟩ := readLong_written h
    exact ⟨fun s hm _ => hs s hm,fun option he => by rw [ha option false he]; rfl⟩
  · cases h
  · next _ cluster _ _ _ =>
    obtain ⟨hs,ha⟩ := readCluster_shorthand table cluster
    cases h
    exact ⟨fun s hm hl => absurd (hs s hm) (by simp [hl]),fun option he => absurd he (ha option)⟩
  · cases h

/-- A long setting stands in the vector in one of its spellings. -/
theorem parse_written {i : ℕ} {o : Occurrence} {s : Setting}
    (ho : o ∈ (parse table i args).occurrences) (hs : s ∈ o.settings) (hl : s.shorthand = false) :
    ∃ k arg, o.index = i+k ∧ args[k]? = some arg ∧ WrittenLong arg args[k+1]? s := by
  fun_induction parse table i args with
  | case1 i | case2 i arg xs h | case3 i arg xs h => simp at ho
  | case4 i arg xs settings h =>
    rw [mem_singleton] at ho
    subst ho
    exact ⟨0,arg,rfl,rfl,(read_written h).1 s hs hl _⟩
  | case5 i arg xs settings h ih =>
    rcases mem_cons.mp ho with rfl | ho
    · exact ⟨0,arg,rfl,rfl,(read_written h).1 s hs hl _⟩
    · obtain ⟨k,a,hk,ha,hw⟩ := ih ho
      exact ⟨k+1,a,by omega,ha,hw⟩
  | case6 i arg settings opt shorthand h =>
    rw [mem_singleton] at ho
    subst ho
    exact ⟨0,arg,rfl,rfl,(read_written h).1 s hs hl _⟩
  | case7 i arg settings opt shorthand h v xs ih =>
    rcases mem_cons.mp ho with rfl | ho
    · rcases mem_append.mp hs with hs | hs
      · exact ⟨0,arg,rfl,rfl,(read_written h).1 s hs hl _⟩
      · rw [mem_singleton] at hs
        subst hs
        subst hl
        exact ⟨0,arg,rfl,rfl,.separate v ((read_written h).2 opt rfl) rfl rfl⟩
    · obtain ⟨k,a,hk,ha,hw⟩ := ih ho
      exact ⟨k+2,a,by omega,ha,hw⟩

theorem readAll_append {more : List Text} (h : readAll table args = some settings) :
    readAll table (args++more) = (readAll table more).map (settings ++ ·) := by
  fun_induction readAll table args generalizing settings with
  | case1 =>
    cases h
    simp
  | case2 arg xs rd hr ih =>
    obtain ⟨tl,ht,rfl⟩ := Option.map_eq_some_iff.mp h
    simp [readAll,hr,ih ht,Function.comp_def]
  | case3 arg rd opt sh hr => cases h
  | case4 arg rd opt sh hr v xs ih =>
    obtain ⟨tl,ht,rfl⟩ := Option.map_eq_some_iff.mp h
    simp [readAll,hr,ih ht,Function.comp_def]
  | case5 arg xs hr₁ hr₂ => cases h

/-- Complete options in front of a positional argument are all that is set. -/
theorem parse_readAll {xs : List Text} {arg : Text} (h : readAll table args = some settings)
    (ha : read table arg = .positional) (i : ℕ) :
    (parse table i (args++arg::xs)).occurrences.flatMap (·.settings) = settings := by
  fun_induction readAll table args generalizing settings i with
  | case1 =>
    cases h
    simp [parse,ha]
  | case2 first xs read hr ih =>
    obtain ⟨tail,ht,rfl⟩ := Option.map_eq_some_iff.mp h
    simp [parse,hr,Parsed.cons,ih ht]
  | case3 first read opt shorthand hr => cases h
  | case4 first read opt shorthand hr v xs ih =>
    obtain ⟨tail,ht,rfl⟩ := Option.map_eq_some_iff.mp h
    simp [parse,hr,Parsed.cons,ih ht]
  | case5 first xs hr₁ hr₂ => cases h

/-- A setting as two arguments, or as one when it is a bare switch. -/
def write (s : Setting) : List Text := dashes s.option::s.value.toList

/-- The table has the option, under a name that can be written, with the arity of the setting. -/
structure Fits (table : OptionTable) (s : Setting) : Prop where
  long : s.shorthand = false
  name : s.option ≠ []
  equals : '=' ∉ s.option
  arity : table.long s.option = some (if s.value.isSome then .valued else .switch)

theorem read_dashes {name : Text} (hn : name ≠ []) :
    read table (dashes name) = readLong table name := by
  cases name with
  | nil => exact absurd rfl hn
  | cons c name => rfl

theorem readAll_write (h : ∀ s ∈ settings, Fits table s) :
    readAll table (settings.flatMap write) = some settings := by
  induction settings with
  | nil => rfl
  | cons s settings ih =>
    obtain ⟨hs,hr⟩ := forall_mem_cons.mp h
    obtain ⟨opt,v,sh⟩ := s
    obtain ⟨rfl,hn,he,ha⟩ := hs
    have hsp := splitOnce_eq_none.mpr he
    cases v with
    | none =>
      simp [write,readAll,read_dashes hn,readLong,hsp,ha,ih hr]
    | some v =>
      simp [write,readAll,read_dashes hn,readLong,hsp,ha,ih hr]

end

end Cdenv.OptionGrammar
