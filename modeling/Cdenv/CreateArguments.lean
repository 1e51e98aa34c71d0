import Cdenv.DockerCommand
import Cdenv.DockerOptions

/-!
# Run arguments inside a create command

What Docker makes of the passthrough part of a create vector. Docker's side is the option grammar
over its table of options, the value grammars of `--mount`, `--volume`, `--tmpfs` and
`--volumes-from`, and path cleaning. The vector is confined when no run argument reaches a setting
the tool owns or an argument the tool appended.

Long options other than `--mount` and `--volumes-from` are fully covered by the screening. What it
does not cover is stated by `RunArgumentsPlain`, on the run arguments alone.
-/
namespace Cdenv.CreateArguments
open TextScan Fallible ContainerPath RuntimePlanning DockerOptions DockerCommand MountArguments List
open OptionGrammar OptionScreening FieldList

/-- Lexical path cleaning: a parent component removes what precedes it. -/
def cleanParts : List Text → List Text → List Text
  | parts, [] => parts
  | parts, component::rest =>
    if component = [] ∨ component = ['.'] then cleanParts parts rest
    else if component = ['.','.'] then cleanParts parts.dropLast rest
    else cleanParts (parts++[component]) rest

/-- Where an absolute mount target lands; Docker refuses any other. -/
def cleanAbsolute (value : Text) : Option Text :=
  if value.head? = some '/' then some (joinPath (cleanParts [] (value.splitOn '/'))) else none

/-- The target of `[source:]target[:mode]`. A mode never starts with a slash. -/
def volumeSpecTarget (spec : Text) : Option Text :=
  match spec.splitOn ':' with
  | [target] => some target
  | [_,target] => some target
  | [_,target,mode] => if mode.head? = some '/' then none else some target
  | _ => none

section
variable (volumesOf : Text → List Text)

/-- Where a setting mounts. Docker reads a `--mount` value as a quoted record, and
`--volumes-from` mounts the volumes of another container, of which `volumesOf` says where
they are. -/
def mountsOn (s : Setting) : List Text :=
  match s.value with
  | none => []
  | some value =>
    if s.option = "mount" then
      (((csvRecord value).bind (assigned namesTarget)).bind cleanAbsolute).toList
    else if s.option = "volume" then ((volumeSpecTarget value).bind cleanAbsolute).toList
    else if s.option = "tmpfs" then (cleanAbsolute (untilFirst ':' value)).toList
    else if s.option = "volumes-from" then volumesOf (untilFirst ':' value)
    else []

/-- Container name, auto-remove, user, working directory, entrypoint and the attach,
interactive and terminal modes. -/
def ownedCreateOptions : List Text :=
  ["name","rm","user","workdir","entrypoint","attach","interactive","tty"]

/-- A setting that leaves alone what the tool owns. -/
def Permitted (targets : List ContainerPath) (s : Setting) : Prop :=
  s.option ∉ ownedCreateOptions ∧ ownedLabel s = false ∧
    ∀ t ∈ mountsOn volumesOf s, ∀ o ∈ targets, overlapsText t o.value = false

instance (targets : List ContainerPath) : DecidablePred (Permitted volumesOf targets) := fun s => by
  unfold Permitted
  infer_instance

/-- Read with the option table, the run arguments of a create vector make permitted
settings, hold no positional argument and take no appended argument as a value. -/
def CreateConfined (table : OptionTable) (request : DockerCreateRequest) (argv : List Text) :
    Prop :=
  (parse table 0 argv.tail).Confined
    (Permitted volumesOf (protectedTargets request.runtime request.cdenvOwnedTargets))
    request.runArguments.length

instance (table : OptionTable) (request : DockerCreateRequest) (argv : List Text) :
    Decidable (CreateConfined volumesOf table request argv) := by
  unfold CreateConfined
  infer_instance

/-- Read on their own, the run arguments are complete options, and every shorthand, every
`--mount` and every `--volumes-from` among them is permitted. -/
def RunArgumentsPlain (table : OptionTable) (targets : List ContainerPath)
    (arguments : List Text) : Prop :=
  (parse table 0 arguments).Closed ∧
    ∀ o ∈ (parse table 0 arguments).occurrences, ∀ s ∈ o.settings,
      s.shorthand = true ∨ s.option = "mount" ∨ s.option = "volumes-from" →
        Permitted volumesOf targets s

end

theorem cleanParts_components {pcs parts : List Text} (h : components pcs = .ok parts)
    (bef : List Text) : cleanParts bef pcs = bef++parts := by
  induction pcs generalizing bef parts with
  | nil =>
    cases h
    simp [cleanParts]
  | cons pc pcs ih =>
    simp only [components] at h
    simp only [cleanParts]
    split_ifs at h ⊢ with hs hup
    · exact ih h bef
    · obtain ⟨tl,ht,rfl⟩ := map_eq_ok.mp h
      rw [ih ht,append_assoc]
      rfl

variable {val : Text} {next : Option Text} {volumesOf : Text → List Text}

/-- A path the planner accepts is cleaned to the planner's own normal form. -/
theorem cleanAbsolute_of_normalize {path : Text} {allowRoot : Bool}
    (h : normalizeAbsolute val allowRoot = .ok path) : cleanAbsolute val = some path := by
  obtain ⟨hh,-,parts,hp,-,rfl⟩ := normalizeAbsolute_eq_ok.mp h
  rw [cleanAbsolute,if_pos hh,cleanParts_components hp,nil_append]

theorem volumeTarget_agrees {t t' : Text} (h : volumeTarget val = some t)
    (h' : volumeSpecTarget val = some t') (ha : t'.head? = some '/') : t' = t := by
  unfold volumeSpecTarget at h'
  unfold volumeTarget at h
  split at h' <;> simp_all

variable {arg prop : Text} {targets : List ContainerPath}

theorem rejectMountTarget_eq_ok {t : Text} (h : rejectMountTarget t prop arg targets = .ok ()) :
    ∃ p, normalizeAbsolute t false = .ok p ∧ ∀ o ∈ targets, overlapsText p o.value = false := by
  simp only [rejectMountTarget,bind_eq_ok,mapError_eq_ok,require_eq_ok,
    ContainerPath.parse_eq_ok] at h
  obtain ⟨p,hp,hc⟩ := h
  exact ⟨p.value,hp,by simpa [ContainerPath.overlaps] using hc⟩

theorem checkMountOption_eq_ok {tg : Text → Option Text} {msg : String}
    (h : checkMountOption (some val) tg msg prop arg targets = .ok ()) :
    ∃ t p, tg val = some t ∧ normalizeAbsolute t false = .ok p ∧
      ∀ o ∈ targets, overlapsText p o.value = false := by
  simp only [checkMountOption,bind_eq_ok,orFail_eq_ok] at h
  obtain ⟨t,ht,hr⟩ := h
  obtain ⟨p,hp,hc⟩ := rejectMountTarget_eq_ok hr
  exact ⟨t,p,ht,hp,hc⟩

theorem reservedCreateSetting_eq_none (h : reservedCreateSetting arg = none) :
    ∀ n ∈ ["--rm","--name","--entrypoint","--workdir","--user"],
      reservedLong arg [n] = false := by
  unfold reservedCreateSetting at h
  split_ifs at h
  simp_all

/-- What a single accepted run argument has passed. -/
structure Screened (argument : Text) (next : Option Text) (targets : List ContainerPath) : Prop where
  create : ∀ name ∈ ["--rm","--name","--entrypoint","--workdir","--user"],
    reservedLong argument [name] = false
  attach : reservedLong argument
    ["--attach","--detach","--interactive","--tty","--sig-proxy"] = false
  label : (optionValue argument next "--label" (some 'l')).any cdenvLabel = false
  volume : ∀ v, optionValue argument next "--volume" (some 'v') = some v →
    ∃ t path, volumeTarget v = some t ∧ normalizeAbsolute t false = .ok path ∧
      ∀ o ∈ targets, overlapsText path o.value = false
  tmpfs : ∀ v, optionValue argument next "--tmpfs" none = some v →
    ∃ path, normalizeAbsolute (untilFirst ':' v) false = .ok path ∧
      ∀ o ∈ targets, overlapsText path o.value = false

theorem checkRunArgument_eq_ok {diagnostic : Text}
    (h : checkRunArgument prop diagnostic arg next targets = .ok ()) :
    Screened arg next targets := by
  unfold checkRunArgument at h
  cases hc : reservedCreateSetting arg with
  | some k => simp [hc,bind_eq_ok] at h
  | none =>
    simp only [hc,bind_eq_ok,require_eq_ok] at h
    obtain ⟨-,-,-,ha,-,hl,⟨⟩,-,⟨⟩,hvo,htm⟩ := h
    simp only [Bool.not_eq_true',Bool.or_eq_false_iff] at ha hl
    refine ⟨reservedCreateSetting_eq_none hc,ha.1.2,hl.2,?_,?_⟩
    · intro v hv
      rw [hv] at hvo
      exact checkMountOption_eq_ok hvo
    · intro v hv
      rw [hv] at htm
      obtain ⟨t,p,ht,hp⟩ := checkMountOption_eq_ok htm
      cases ht
      exact ⟨p,hp⟩

theorem validateRunArguments_screened {i : ℕ} {raws args : List Text}
    (h : validateRunArguments targets i raws args = .ok ()) (hl : args.length ≤ raws.length)
    {k : ℕ} (hk : args[k]? = some arg) :
    Screened arg args[k+1]? targets := by
  induction args generalizing i raws k with
  | nil => simp at hk
  | cons a args ih =>
    obtain ⟨raw,raws,rfl⟩ : ∃ raw rest, raws = raw::rest :=
      exists_cons_of_length_pos (by simp only [length_cons] at hl; omega)
    simp only [validateRunArguments,bind_eq_ok] at h
    obtain ⟨⟨⟩,hc,hr⟩ := h
    cases k with
    | zero =>
      cases hk
      simpa [head?_eq_getElem?] using checkRunArgument_eq_ok hc
    | succ k =>
      exact ih hr (by simpa using hl) hk

variable {s : Setting}

theorem Screened.not_owned (h : Screened arg next targets) (hw : WrittenLong arg next s) :
    s.option ∉ ownedCreateOptions := by
  intro hm
  have hna : ownedCreateOptions.map dashes ⊆
      (["--rm","--name","--entrypoint","--workdir","--user"] ++
        ["--attach","--detach","--interactive","--tty","--sig-proxy"]).map String.toList := by
    decide
  obtain ⟨n,hn,heq⟩ := mem_map.mp (hna (mem_map_of_mem hm))
  rcases mem_append.mp hn with hn | hn
  · exact absurd (reservedLong_of_written hw (mem_singleton.mpr rfl) heq) (by simp [h.create n hn])
  · exact absurd (reservedLong_of_written hw hn heq) (by simp [h.attach])

theorem Screened.clear (h : Screened arg next targets) (hw : WrittenLong arg next s)
    (hm : s.option ≠ "mount") (hvf : s.option ≠ "volumes-from") :
    ∀ t ∈ mountsOn volumesOf s, ∀ o ∈ targets, overlapsText t o.value = false := by
  intro t ht
  cases hv : s.value with
  | none => simp [mountsOn,hv] at ht
  | some v =>
    simp only [mountsOn,hv,if_neg hm,if_neg hvf] at ht
    split_ifs at ht with hvo htm
    · obtain ⟨spc,hs,hcl⟩ := Option.bind_eq_some_iff.mp (Option.mem_toList.mp ht)
      obtain ⟨t',p,ht',hp,hc⟩ := h.volume v
        (optionValue_of_written hw hv "--volume" (some 'v') (by rw [hvo]; rfl))
      have ha : spc.head? = some '/' := by
        by_contra hne
        simp [cleanAbsolute,hne] at hcl
      cases volumeTarget_agrees ht' hs ha
      cases (cleanAbsolute_of_normalize hp).symm.trans hcl
      exact hc
    · obtain ⟨p,hp,hc⟩ := h.tmpfs v
        (optionValue_of_written hw hv "--tmpfs" none (by rw [htm]; rfl))
      cases (cleanAbsolute_of_normalize hp).symm.trans (Option.mem_toList.mp ht)
      exact hc
    · cases ht

/-- Accepted run arguments can only go wrong through shorthands, `--mount` and
`--volumes-from`. -/
theorem permitted_of_long {tb : OptionTable} {args : List Text}
    (h : validateRunArguments targets 0 args args = .ok ()) {o : Occurrence}
    (ho : o ∈ (parse tb 0 args).occurrences) (hs : s ∈ o.settings) (hl : s.shorthand = false)
    (hm : s.option ≠ "mount") (hvf : s.option ≠ "volumes-from") :
    Permitted volumesOf targets s := by
  obtain ⟨k,arg,-,hk,hw⟩ := parse_written ho hs hl
  have hsc := validateRunArguments_screened h le_rfl hk
  exact ⟨hsc.not_owned hw,ownedLabel_eq_false hw (some 'l') hsc.label,hsc.clear hw hm hvf⟩

theorem ownedCreateArguments_ne_nil (req : DockerCreateRequest) : ownedCreateArguments req ≠ [] :=
  append_ne_nil_of_right_ne_nil _ (cons_ne_nil _ _)

/-- A create vector is confined exactly when its run arguments are plain. -/
theorem createArguments_confined_iff {volumesOf : Text → List Text} {table : OptionTable}
    {request : DockerCreateRequest}
    {argv : List Text} (h : createArguments request = .ok argv) :
    CreateConfined volumesOf table request argv ↔
      RunArgumentsPlain volumesOf table (protectedTargets request.runtime request.cdenvOwnedTargets)
        request.runArguments := by
  obtain ⟨hv,-,-,rfl⟩ := createArguments_eq_ok h
  have ha := confined_append_iff table
    (Permitted volumesOf (protectedTargets request.runtime request.cdenvOwnedTargets))
    (ownedCreateArguments_ne_nil request) 0 request.runArguments
  rw [Nat.zero_add] at ha
  refine ha.trans (and_congr_right fun _ => ?_)
  constructor
  · intro hal o ho s hs _
    exact hal o ho s hs
  · intro hp o ho s hs
    by_cases hc : s.shorthand = true ∨ s.option = "mount" ∨ s.option = "volumes-from"
    · exact hp o ho s hs hc
    · rw [not_or,not_or,Bool.not_eq_true] at hc
      exact permitted_of_long hv ho hs hc.1 hc.2.1 hc.2.2

def createTable : OptionTable where
  long name :=
    if ["name","user","workdir","entrypoint","attach","label","mount","volume","tmpfs",
        "publish","gpus","env","cap-add","security-opt","memory","network","volumes-from"].any
        fun option => name == option.toList then some .valued
    else if ["rm","interactive","tty","init","privileged","publish-all"].any
        fun option => name == option.toList then some .switch
    else none
  short c :=
    ([('u', "user"),('w', "workdir"),('a', "attach"),('i', "interactive"),('t', "tty"),
      ('l', "label"),('v', "volume"),('p', "publish"),('e', "env"),('m', "memory"),
      ('P', "publish-all")].find? fun p => p.1 == c).map fun p => p.2.toList

def sampleRequest (runArguments : List String) : DockerCreateRequest where
  name := "app-1"
  image := "alpine"
  identity := .sample
  runtime := .sample
  runArguments := runArguments.map String.toList
  ports := {}
  gpuAccess := .none
  command := []
  cdenvOwnedTargets := [.sample]

/-- Accepted run arguments in every form that the table has. -/
def plainArguments : List String :=
  ["-e","A=b","--memory=1g","-Pv","cache:/cache","--volumes-from","db:ro",
    "--mount","type=bind,\"source=/a,b\",target=/data"]

theorem createArguments_confined_plain :
    ∃ argv, createArguments (sampleRequest plainArguments) = .ok argv ∧
      CreateConfined (fun _ => ["/var/lib/db"]) createTable (sampleRequest plainArguments) argv ∧
      RunArgumentsPlain (fun _ => ["/var/lib/db"]) createTable (protectedTargets .sample [.sample])
        (plainArguments.map String.toList) := by
  refine exists_ok_and (P := CreateConfined (fun _ => ["/var/lib/db"]) createTable
    (sampleRequest plainArguments)) (by decide +kernel) fun argv ha hc => ?_
  exact ⟨hc,(createArguments_confined_iff ha).mp hc⟩

/-- The screening looks at the first letter of a cluster; Docker reads every one. -/
theorem createArguments_cluster :
    ∃ argv, createArguments (sampleRequest ["-itu","root"]) = .ok argv ∧
      ¬ CreateConfined (fun _ => []) createTable (sampleRequest ["-itu","root"]) argv :=
  exists_ok_and (by decide +kernel) fun _ _ hb => hb

end Cdenv.CreateArguments
