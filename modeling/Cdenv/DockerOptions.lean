import Cdenv.OptionGrammar
import Cdenv.RuntimePlanning

/-!
# Docker build and create options

The screening of passthrough options looks at arguments one by one: it knows the
reserved long names, a few first shorthand letters, and the value that follows an option
of interest.

On long options the screening agrees with the option grammar; nothing of the kind holds
for shorthands.
-/
namespace Cdenv.DockerOptions
open TextScan Fallible Substitution ContainerPath RuntimePlanning

inductive DockerOptionErrorKind where
  | pathOutsideCheckout | substitution | buildInvariant | buildContext | identityLabel
  | containerName | autoRemove | containerUser | workspaceFolder | entrypoint | attachmentMode
  | invalidMountArgument | mountTarget
deriving DecidableEq

structure DockerOptionError where
  (propertyPath argument : Text)
  kind : DockerOptionErrorKind
  message : Text
deriving DecidableEq

def optionError (propertyPath argument : Text) (kind : DockerOptionErrorKind) (message : String) :
    DockerOptionError :=
  ⟨propertyPath,argument,kind,message.toList⟩

def reservedLong (argument : Text) (names : List String) : Bool :=
  names.any fun name =>
    argument == name.toList ||
      (stripPrefix name.toList argument).any fun suffix => suffix.head? == some '='

def shortLetters (argument : Text) : Option Text :=
  (stripPrefix ['-'] argument).filter fun value => value.head? != some '-'

def reservedShort (argument : Text) (names : List Char) : Bool :=
  ((shortLetters argument).bind List.head?).any names.contains

def reservedAttachShort (argument : Text) : Bool :=
  match shortLetters argument with
  | none => false
  | some flags =>
    let flags := untilFirst '=' flags
    !flags.isEmpty && flags.all fun flag => ['a','d','i','t'].contains flag

def reservedCreateSetting (argument : Text) : Option DockerOptionErrorKind :=
  if reservedLong argument ["--rm"] then some .autoRemove
  else if reservedLong argument ["--name"] then some .containerName
  else if reservedLong argument ["--entrypoint"] then some .entrypoint
  else if reservedLong argument ["--workdir"] || reservedShort argument ['w'] then
    some .workspaceFolder
  else if reservedLong argument ["--user"] || reservedShort argument ['u'] then
    some .containerUser
  else none

/-- The value an argument gives to one option: the next argument, the text behind `=`,
or what is attached to its shorthand. -/
def optionValue (argument : Text) (next : Option Text) (long : String) (short : Option Char) :
    Option Text :=
  if argument = long.toList ∨ short.any fun c => argument == ['-',c] then next
  else
    match stripPrefix (long.toList++['=']) argument with
    | some value => some value
    | none =>
      (short.bind fun c => stripPrefix ['-',c] argument).filter fun value => !value.isEmpty

def cdenvLabel (value : Text) : Bool := "cdenv.".toList.isPrefixOf (untilFirst '=' value)

/-- Exactly one field under an exact target key; keys and values are trimmed. -/
def mountTarget (value : Text) : Option Text :=
  let targets := (value.splitOn ',').filterMap fun field =>
    (splitOnce '=' field).bind fun p => if isTargetKey (trim p.1) then some (trim p.2) else none
  match targets with
  | [target] => if target = [] then none else some target
  | _ => none

def volumeTarget (value : Text) : Option Text :=
  match (value.splitOn ':').reverse with
  | [] => none
  | last::rest =>
    if last.head? = some '/' then some last
    else rest.head?.filter fun target => target.head? == some '/'

def protectedTargets (runtime : RuntimePlan) (owned : List ContainerPath) : List ContainerPath :=
  runtime.workspace.mount.target::runtime.mounts.map (·.target)++owned

def rejectMountTarget (target property argument : Text) (targets : List ContainerPath) :
    Except DockerOptionError Unit := do
  let path ← (ContainerPath.parse target).mapError fun _ =>
    optionError property argument .invalidMountArgument
      "run argument mount target must be an absolute container path"
  require (!targets.any path.overlaps)
    (optionError property argument .mountTarget
      "run argument mount overlaps a workspace or cdenv-owned target")

/-- Apply a mount check to the option's value, if the argument gives one. -/
def checkMountOption (value : Option Text) (target : Text → Option Text) (message : String)
    (property argument : Text) (targets : List ContainerPath) : Except DockerOptionError Unit :=
  match value with
  | none => .ok ()
  | some value => do
    let target ← orFail (target value)
      (optionError property argument .invalidMountArgument message)
    rejectMountTarget target property argument targets

/-- One create argument, with the one after it as a possible value. -/
def checkRunArgument (property diagnostic argument : Text) (next : Option Text)
    (targets : List ContainerPath) : Except DockerOptionError Unit := do
  match reservedCreateSetting argument with
  | some kind =>
    .error (optionError property diagnostic kind
      "option conflicts with a cdenv-owned create setting")
  | none => .ok ()
  require (!(argument == "--" ||
      reservedLong argument ["--attach","--detach","--interactive","--tty","--sig-proxy"] ||
      reservedAttachShort argument))
    (optionError property diagnostic .attachmentMode
      "option conflicts with cdenv-owned attach, stdin, or TTY mode")
  require (!(reservedLong argument ["--label-file"] ||
      (optionValue argument next "--label" (some 'l')).any cdenvLabel))
    (optionError property diagnostic .identityLabel "option conflicts with a cdenv identity label")
  checkMountOption (optionValue argument next "--mount" none) mountTarget
    "--mount must contain one target, dst, or destination field" property diagnostic targets
  checkMountOption (optionValue argument next "--volume" (some 'v')) volumeTarget
    "--volume must contain an absolute container target" property diagnostic targets
  checkMountOption (optionValue argument next "--tmpfs" none) (fun value => some (untilFirst ':' value))
    "" property diagnostic targets

/-- Every index is checked; diagnostics quote the argument before substitution. -/
def validateRunArguments (targets : List ContainerPath) :
    ℕ → List Text → List Text → Except DockerOptionError Unit
  | index, raw::raws, argument::rest => do
    checkRunArgument (indexed "$.runArgs" index) raw argument rest.head? targets
    validateRunArguments targets (index+1) raws rest
  | _, _, _ => .ok ()

/-- Create options are checked at every index, values included. -/
def validateCreateOptionsAtBoundary (arguments : List Text) (runtime : RuntimePlan)
    (owned : List ContainerPath) : Except DockerOptionError Unit :=
  validateRunArguments (protectedTargets runtime owned) 0 arguments arguments

/-- Build options are walked with a fixed list of options that take the next argument. -/
def buildOptionTakesValue (argument : Text) : Bool :=
  ["--add-host","--allow","--annotation","--attest","--build-arg","--build-context",
    "--cache-from","--cache-to","--call","--cgroup-parent","--cpu-period","--cpu-quota",
    "--cpu-shares","--cpuset-cpus","--cpuset-mems","--memory","--network","--no-cache-filter",
    "--platform","--progress","--provenance","--sbom","--secret","--shm-size","--ssh",
    "--ulimit"].any fun name => argument == name.toList

/-- One build option, with its possible value. -/
def checkBuildOption (property argument : Text) (next : Option Text) :
    Except DockerOptionError Unit := do
  require (!(reservedLong argument ["--file","--tag","--target","--output","--iidfile",
      "--metadata-file","--push"] || reservedShort argument ['f','t','o']))
    (optionError property argument .buildInvariant
      "option conflicts with cdenv-owned Dockerfile, target, tag, or build output")
  require (!(reservedLong argument ["--label-file"] ||
      (optionValue argument next "--label" none).any cdenvLabel))
    (optionError property argument .identityLabel "option conflicts with a cdenv identity label")
  require (argument.head? == some '-' && argument != ['-'] && argument != ['-','-'])
    (optionError property argument .buildContext "positional build context is cdenv-owned")

def consumesNext (argument : Text) : Bool :=
  !argument.contains '=' && (argument == "--label" || buildOptionTakesValue argument)

/-- The walk steps over the value of an option it knows to take one. -/
def validateBuildOptions : ℕ → List Text → Except DockerOptionError Unit
  | _, [] => .ok ()
  | index, argument::rest => do
    checkBuildOption (indexed "$.build.options" index) argument rest.head?
    if consumesNext argument then
      match rest with
      | [] => .ok ()
      | _::rest => validateBuildOptions (index+2) rest
    else validateBuildOptions (index+1) rest

def validateBuildOptionsAtBoundary (arguments : List Text) : Except DockerOptionError Unit :=
  validateBuildOptions 0 arguments

structure DockerfileBuildPlan where
  (dockerfile context : Text)
  target : Option Text := none
  arguments : OrderedMap Text Text := .empty
  cacheFrom : List Text := []
  options : List Text := []

inductive BuildPlan where
  | image (image : Text)
  | dockerfile (plan : DockerfileBuildPlan)
  | compose

end Cdenv.DockerOptions

namespace Cdenv.OptionScreening
open TextScan DockerOptions OptionGrammar

/-- A label under the tool's own keys. -/
def ownedLabel (s : Setting) : Bool :=
  s.option == "label" &&
    s.value.any fun value => "cdenv.".toList.isPrefixOf (untilFirst '=' value)

variable {arg : Text} {next : Option Text} {s : Setting}

/-- Every spelling of a long option is caught by its reserved name. -/
theorem reservedLong_of_written (h : WrittenLong arg next s) {ns : List String}
    {n : String} (hm : n ∈ ns) (hna : n.toList = dashes s.option) :
    reservedLong arg ns = true := by
  refine List.any_eq_true.mpr ⟨n,hm,?_⟩
  cases h with
  | bare h hv | separate v h hn hv => simp [h,hna]
  | attached v h hv =>
    have hs : arg = n.toList++ '='::v := by rw [h,hna]; rfl
    simp [hs,stripPrefix_append]

/-- The screening reads the value Docker reads. -/
theorem optionValue_of_written {v : Text} (h : WrittenLong arg next s) (hv : s.value = some v)
    (long : String) (short : Option Char) (hna : long.toList = dashes s.option) :
    optionValue arg next long short = some v := by
  cases h with
  | bare h hv' => simp [hv'] at hv
  | separate w h hn hv' =>
    cases hv'.symm.trans hv
    rw [optionValue,if_pos (.inl (h.trans hna.symm)),hn]
  | attached w h hv' =>
    cases hv'.symm.trans hv
    have hs : arg = (long.toList++['='])++v := by rw [h,hna]; simp [dashes]
    have hl : arg ≠ long.toList := by
      intro he
      have := congrArg List.length (he.symm.trans hs)
      simp at this
    have hsh : ¬ (short.any fun c => arg == ['-',c]) = true := by
      rw [h]
      cases short with
      | none => simp
      | some c =>
        simp only [Option.any_some,beq_iff_eq,dashes]
        intro he
        have := congrArg List.length he
        simp at this
    rw [optionValue,if_neg (by simp [hl,hsh]),hs,stripPrefix_append]

/-- A label option that passed the screening carries no key of the tool's own. -/
theorem ownedLabel_eq_false (hw : WrittenLong arg next s) (short : Option Char)
    (h : (optionValue arg next "--label" short).any cdenvLabel = false) :
    ownedLabel s = false := by
  by_contra hl
  simp only [ownedLabel,Bool.not_eq_false,Bool.and_eq_true,beq_iff_eq, Option.any_eq_true] at hl
  obtain ⟨ho,v,hv,hk⟩ := hl
  rw [optionValue_of_written hw hv "--label" short (by rw [ho]; rfl),Option.any_some,
    cdenvLabel,hk] at h
  cases h

end Cdenv.OptionScreening
