import Cdenv.DockerCommand
import Cdenv.DockerOptions

/-!
# Build options inside a build command

What Docker makes of the passthrough part of a build vector. The screening walks
the options with its own list of options that take the next argument; Docker reads
them with its table. Where the two walks meet, long options are covered. The rest
is stated by `BuildOptionsPlain`, on the options alone.

Reading stops at the first positional argument. A reader that goes on behind it
gives the same answer here, because one positional build option is a violation.
-/
namespace Cdenv.BuildArguments
open List
open TextScan Fallible RuntimePlanning DockerOptions DockerCommand OptionGrammar OptionScreening

def ownedBuildOptions : List Text :=
  ["file","tag","target","output","iidfile","metadata-file","push"]

def Permitted (s : Setting) : Prop := s.option ∉ ownedBuildOptions ∧ ownedLabel s = false

instance : DecidablePred Permitted := fun s => by
  unfold Permitted
  infer_instance

/-- Read with the option table, the options of a build vector make permitted settings,
hold no positional argument and take no appended argument as a value. -/
def BuildConfined (table : OptionTable) (request : DockerBuildRequest) (argv : List Text) : Prop :=
  (parse table 0 argv.tail).Confined Permitted request.plan.options.length

instance (table : OptionTable) (request : DockerBuildRequest) (argv : List Text) :
    Decidable (BuildConfined table request argv) := by
  unfold BuildConfined
  infer_instance

/-- The indices the screening stops at. -/
def visited : ℕ → List Text → List ℕ
  | _, [] => []
  | index, argument::rest =>
    if consumesNext argument then
      match rest with
      | [] => [index]
      | _::rest => index::visited (index+2) rest
    else index::visited (index+1) rest

/-- Read on their own, the options are complete, and every setting made by a shorthand
or by an argument the screening stepped over is permitted. -/
def BuildOptionsPlain (table : OptionTable) (options : List Text) : Prop :=
  (parse table 0 options).Closed ∧
    ∀ o ∈ (parse table 0 options).occurrences, ∀ s ∈ o.settings,
      s.shorthand = true ∨ o.index ∉ visited 0 options → Permitted s

/-- What an argument the screening stopped at has passed. -/
structure Screened (argument : Text) (next : Option Text) : Prop where
  owned : reservedLong argument ["--file","--tag","--target","--output","--iidfile",
    "--metadata-file","--push"] = false
  label : (optionValue argument next "--label" none).any cdenvLabel = false

variable {arg : Text}

theorem checkBuildOption_eq_ok {prop : Text} {next : Option Text}
    (h : checkBuildOption prop arg next = .ok ()) : Screened arg next := by
  simp only [checkBuildOption,bind_eq_ok,require_eq_ok,Bool.not_eq_true', Bool.or_eq_false_iff] at h
  obtain ⟨-,ho,-,hl,-⟩ := h
  exact ⟨ho.1,hl.2⟩

variable {opts : List Text}

theorem le_of_mem_visited {i k : ℕ} (h : k ∈ visited i opts) : i ≤ k := by
  fun_induction visited i opts with
  | case1 i => simp at h
  | case2 i arg hc => exact (mem_singleton.mp h).ge
  | case3 i arg hc v xs ih =>
    rcases mem_cons.mp h with rfl | h
    · exact le_rfl
    · exact (ih h).trans' (Nat.le_add_right i 2)
  | case4 i arg xs hc ih =>
    rcases mem_cons.mp h with rfl | h
    · exact le_rfl
    · exact (ih h).trans' (Nat.le_succ i)

/-- The walk checked every index it stopped at, with the argument that follows. -/
theorem validateBuildOptions_screened {i k : ℕ}
    (h : validateBuildOptions i opts = .ok ()) (hk : opts[k]? = some arg)
    (hv : i+k ∈ visited i opts) : Screened arg opts[k+1]? := by
  fun_induction visited i opts generalizing k with
  | case1 i => simp at hk
  | case2 i fst hc =>
    simp only [validateBuildOptions,bind_eq_ok] at h
    obtain ⟨⟨⟩,hch,-⟩ := h
    cases k with
    | zero =>
      cases hk
      exact checkBuildOption_eq_ok hch
    | succ k => simp at hk
  | case3 i fst hc v xs ih =>
    simp only [validateBuildOptions,bind_eq_ok,hc,if_true] at h
    obtain ⟨⟨⟩,hch,hr⟩ := h
    rcases k with _ | _ | k
    · cases hk
      exact checkBuildOption_eq_ok hch
    · rcases mem_cons.mp hv with he | hm
      · omega
      · exact absurd (le_of_mem_visited hm) (by omega)
    · rcases mem_cons.mp hv with he | hm
      · omega
      · have hs : i+(k+1+1) = i+2+k := by omega
        exact ih hr hk (hs ▸ hm)
  | case4 i fst xs hc ih =>
    unfold validateBuildOptions at h
    simp only [bind_eq_ok,hc] at h
    obtain ⟨⟨⟩,hch,hr⟩ := h
    cases k with
    | zero =>
      cases hk
      simpa [head?_eq_getElem?] using checkBuildOption_eq_ok hch
    | succ k =>
      rcases mem_cons.mp hv with he | hm
      · omega
      · have hs : i+(k+1) = i+1+k := by omega
        exact ih hr hk (hs ▸ hm)

theorem Screened.permitted {next : Option Text} {s : Setting} (h : Screened arg next)
    (hw : WrittenLong arg next s) : Permitted s := by
  refine ⟨?_,ownedLabel_eq_false hw none h.label⟩
  intro hm
  have hd : dashes s.option ∈ ["--file","--tag","--target","--output","--iidfile",
      "--metadata-file","--push"].map String.toList := mem_map_of_mem hm
  obtain ⟨n,hn,heq⟩ := mem_map.mp hd
  exact absurd (reservedLong_of_written hw hn heq) (by simp [h.owned])

theorem ownedBuildArguments_ne_nil (req : DockerBuildRequest) : ownedBuildArguments req ≠ [] :=
  append_ne_nil_of_right_ne_nil _ (cons_ne_nil _ _)

/-- A build vector is confined exactly when its options are plain. -/
theorem buildArguments_confined_iff {table : OptionTable} {request : DockerBuildRequest}
    {argv : List Text} (h : buildArguments request = .ok argv) :
    BuildConfined table request argv ↔ BuildOptionsPlain table request.plan.options := by
  obtain ⟨hv,-,rfl⟩ := buildArguments_eq_ok h
  have ha := confined_append_iff table Permitted (ownedBuildArguments_ne_nil request) 0
    request.plan.options
  rw [Nat.zero_add] at ha
  refine ha.trans (and_congr_right fun _ => ?_)
  constructor
  · intro hal o ho s hs _
    exact hal o ho s hs
  · intro hp o ho s hs
    by_cases hc : s.shorthand = true ∨ o.index ∉ visited 0 request.plan.options
    · exact hp o ho s hs hc
    · rw [not_or,Bool.not_eq_true,not_not] at hc
      obtain ⟨k,arg,hi,hk,hw⟩ := parse_written ho hs hc.1
      exact (validateBuildOptions_screened hv hk (hi ▸ hc.2)).permitted hw

def buildTable : OptionTable where
  long name :=
    if ["file","tag","target","output","iidfile","metadata-file","build-arg","cache-from",
        "label","memory","network","platform"].any fun option => name == option.toList then
      some .valued
    else if ["no-cache","pull","push","quiet","load"].any fun option => name == option.toList then
      some .switch
    else none
  short c :=
    ([('f', "file"),('t', "tag"),('o', "output"),('m', "memory"),('q', "quiet")].find?
      fun p => p.1 == c).map fun p => p.2.toList

def sampleRequest (options : List String) : DockerBuildRequest where
  plan :=
    { dockerfile := "Dockerfile", context := "."
      options := options.map String.toList }
  dockerfile := "/repo/Dockerfile"
  context := "/repo"
  tag := "app:1"
  iidFile := "/tmp/iid"
  identity := .sample
  noCache := true

theorem buildArguments_confined_plain :
    ∃ argv, buildArguments (sampleRequest ["--build-arg","A=b","-qm1g","--label=team=x"]) =
        .ok argv ∧
      BuildConfined buildTable
        (sampleRequest ["--build-arg","A=b","-qm1g","--label=team=x"]) argv ∧
      BuildOptionsPlain buildTable
        (["--build-arg","A=b","-qm1g","--label=team=x"].map String.toList) := by
  refine exists_ok_and (P := BuildConfined buildTable
    (sampleRequest ["--build-arg","A=b","-qm1g","--label=team=x"])) (by decide +kernel)
    fun argv ha hc => ?_
  exact ⟨hc,(buildArguments_confined_iff ha).mp hc⟩

/-- A last option that takes a value takes the first appended argument. -/
theorem buildArguments_trailing_value :
    ∃ argv, buildArguments (sampleRequest ["--build-arg"]) = .ok argv ∧
      ¬ BuildConfined buildTable (sampleRequest ["--build-arg"]) argv :=
  exists_ok_and (by decide +kernel) fun _ _ hb => hb

end Cdenv.BuildArguments
