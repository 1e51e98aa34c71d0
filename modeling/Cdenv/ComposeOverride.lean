import Cdenv.ComposePlanning
import Cdenv.Interpolation
import Cdenv.JsonText
import Cdenv.MountArguments

/-!
# The override file as Compose reads it

Compose decodes the document, interpolates every string value and reads the fields
of a service. The reader here covers the fields the override writes. Decoding is the outside
reader's and enters as the parameter `decode`.

Reading gives back the plan under every environment exactly when no written text
holds a dollar sign and the read-only flag of every mount was computed from options
that mean what their names say.
-/
namespace Cdenv.ComposeOverride
open TextScan Fallible RuntimePlanning ComposePlanning Interpolation MountArguments List

/-- The last option that names the read-only mode decides; only a false value makes
the mount writable. -/
def namesReadOnly (name : Text) : Bool :=
  lowerKey name == "readonly" || lowerKey name == "ro"

def isFalseValue (value : Option Text) : Bool :=
  value.any fun v => ["0","f","F","false","FALSE","False"].any fun w => v == w.toList

def lastReadOnly (options : List MountOption) : Option MountOption :=
  options.reverse.find? fun option => namesReadOnly option.name

def saysReadOnly (options : List MountOption) : Bool :=
  (lastReadOnly options).any fun option => !isFalseValue option.value

structure ServiceReading where
  labels : List (Text × Text)
  (image workingDir : Option Text)
  volumes : List MountOverride
  environment : List (Text × Text)
  ports : List Text
  user : Option Text
  (capAdd securityOpt : List Text)
  (entrypoint command : Option (List Text))

def field (name : String) : Json → Option Json
  | .object fields => (fields.find? fun f => f.1 == name.toList).map (·.2)
  | _ => none

section
variable (env : Environment)

def readText : Json → Option Text
  | .string value => interpolate env value
  | _ => none

def readTexts : Json → Option (List Text)
  | .array items => items.mapM (readText env)
  | _ => none

def readEntries : Json → Option (List (Text × Text))
  | .object fields => fields.mapM fun f => (readText env f.2).map fun value => (f.1, value)
  | _ => none

def readFlag : Option Json → Option Bool
  | none => some false
  | some (.bool value) => some value
  | some _ => none

/-- An absent field is read as absent; a present one has to be readable. -/
def optional {A : Type} (read : Json → Option A) : Option Json → Option (Option A)
  | none => some none
  | some j => (read j).map some

def orEmpty {A : Type} (read : Json → Option (List A)) : Option Json → Option (List A)
  | none => some []
  | some j => read j

def readMount (j : Json) : Option MountOverride := do
  let kind ← (field "type" j).bind (readText env)
  let source ← optional (readText env) (field "source" j)
  let target ← (field "target" j).bind (readText env)
  let readOnly ← readFlag (field "read_only" j)
  return ⟨kind,source,target,readOnly⟩

def readMounts : Json → Option (List MountOverride)
  | .array items => items.mapM (readMount env)
  | _ => none

/-- The fields of a service under an environment. -/
def readService (j : Json) : Option ServiceReading := do
  let labels ← orEmpty (readEntries env) (field "labels" j)
  let image ← optional (readText env) (field "image" j)
  let workingDir ← optional (readText env) (field "working_dir" j)
  let volumes ← orEmpty (readMounts env) (field "volumes" j)
  let environment ← orEmpty (readEntries env) (field "environment" j)
  let ports ← orEmpty (readTexts env) (field "ports" j)
  let user ← optional (readText env) (field "user" j)
  let capAdd ← orEmpty (readTexts env) (field "cap_add" j)
  let securityOpt ← orEmpty (readTexts env) (field "security_opt" j)
  let entrypoint ← optional (readTexts env) (field "entrypoint" j)
  let command ← optional (readTexts env) (field "command" j)
  return ⟨labels,image,workingDir,volumes,environment,ports,user,capAdd,securityOpt,
    entrypoint,command⟩

def readServices : Json → Option (List (Text × ServiceReading))
  | .object services => services.mapM fun f => (readService env f.2).map fun r => (f.1, r)
  | _ => none

/-- A volume that is mounted by its name is declared in a top-level section, of which the
override has none. -/
def isDeclared (declared : List Text) (mount : MountOverride) : Bool :=
  mount.kind != "volume" ||
    mount.source.all fun source => source.isEmpty || declared.contains source

/-- The checks on a service once it is read. Releases that do not refuse a repeated item
keep one of the two. -/
def ServiceReading.isConsistent (declared : List Text) (r : ServiceReading) : Bool :=
  r.volumes.all (isDeclared declared) && decide (r.volumes.map (·.target)).Nodup &&
    decide r.ports.Nodup && decide r.capAdd.Nodup && decide r.securityOpt.Nodup

/-- The override read in a project whose files declare the given volumes. -/
def readOverride (declared : List Text) (decode : Text → Option Json) (text : Text) :
    Option (List (Text × ServiceReading)) :=
  ((decode text).bind fun document => (field "services" document).bind (readServices env)).filter
    fun services => services.all fun s => s.2.isConsistent declared

end

def plannedVolume (mount : PlannedMount) : MountOverride :=
  ⟨kindText mount.kind,mount.source,mount.target.value,saysReadOnly mount.options⟩

def plannedMounts (inputs : ComposePlanningInputs) : List PlannedMount :=
  inputs.runtime.workspace.mount::inputs.runtime.mounts

/-- The reading carries exactly the planned settings of the primary service. -/
structure CarriesPlan (inputs : ComposePlanningInputs) (r : ServiceReading) : Prop where
  workingDir : r.workingDir = some inputs.runtime.workspace.folder.value
  environment : r.environment = inputs.runtime.environment.container.entries
  volumes : r.volumes = (plannedMounts inputs).map plannedVolume
  ports : r.ports = inputs.ports.publications.map (·.argument)
  user : r.user = some inputs.runtime.containerUser.value
  capAdd : r.capAdd = inputs.runtime.capAdd
  securityOpt : r.securityOpt = inputs.runtime.securityOpt
  entrypoint : r.entrypoint = inputs.primaryOverride.entrypoint
  command : r.command = inputs.primaryOverride.command

/-- Under every environment the file gives every modelled service the identity labels
and the primary service the plan. -/
def ReadsAsPlanned (declared : List Text) (decode : Text → Option Json) (model : ComposeModel)
    (inputs : ComposePlanningInputs) (plan : ComposePlan) : Prop :=
  ∀ env, ∃ services, readOverride env declared decode plan.overrideJson = some services ∧
    (∀ name ∈ model.keys, ∃ r, (name, r) ∈ services ∧
      r.labels = (identityLabels inputs.identity).entries) ∧
    ∃ r, (plan.primaryService, r) ∈ services ∧ CarriesPlan inputs r

/-- Every text the override writes for the plan, the image apart. -/
def writtenTexts (inputs : ComposePlanningInputs) : List Text :=
  (identityLabels inputs.identity).values ++
    inputs.runtime.workspace.folder.value ::
    (plannedMounts inputs).flatMap (fun mount => mount.target.value::mount.source.toList) ++
    inputs.runtime.environment.container.values ++
    inputs.ports.publications.map (·.argument) ++
    inputs.runtime.containerUser.value::inputs.runtime.capAdd++inputs.runtime.securityOpt ++
    inputs.primaryOverride.entrypoint.getD []++inputs.primaryOverride.command.getD []

/-- The exactly spelled names that the renderer looks for. -/
def spelledReadOnly (option : MountOption) : Bool :=
  option.name == "readonly" || option.name == "ro"

/-- A mount that is to be read-only has an exactly spelled option, one that is to be
writable has none. -/
def ReadOnlyPlain (options : List MountOption) : Prop :=
  match lastReadOnly options with
  | none => True
  | some last =>
    if isFalseValue last.value then ∀ option ∈ options, spelledReadOnly option = false
    else ∃ option ∈ options, spelledReadOnly option = true

/-- No written text holds a dollar sign, the image is well formed for interpolation, the
read-only options are plain, the mounted volumes are declared, and no mount target,
publication, capability or security option is repeated. -/
structure OverridePlain (declared : List Text) (inputs : ComposePlanningInputs) : Prop where
  texts : ∀ t ∈ writtenTexts inputs, '$' ∉ t
  image : ∀ image, inputs.primaryOverride.image = some image →
    (interpolate unset image).isSome = true
  readOnly : ∀ mount ∈ plannedMounts inputs, ReadOnlyPlain mount.options
  volumes : ∀ mount ∈ plannedMounts inputs, mount.kind = .volume →
    ∀ source, mount.source = some source → source = [] ∨ source ∈ declared
  targets : ((plannedMounts inputs).map (·.target.value)).Nodup
  ports : (inputs.ports.publications.map (·.argument)).Nodup
  capAdd : inputs.runtime.capAdd.Nodup
  securityOpt : inputs.runtime.securityOpt.Nodup

variable {fs : List (Text × Option Json)}

theorem find?_objectOf (h : (fs.map Prod.fst).Nodup) (n : Text) :
    ((fs.filterMap fun f => f.2.map fun val => (f.1, val)).find? fun f => f.1 == n).map
        (·.2) = (fs.find? fun f => f.1 == n).bind (·.2) := by
  induction fs with
  | nil => rfl
  | cons f fs ih =>
    obtain ⟨key,val⟩ := f
    rw [map_cons,nodup_cons] at h
    by_cases hk : key = n
    · have ha : ∀ p ∈ fs.filterMap (fun f => f.2.map fun val => (f.1, val)),
          ¬ (p.1 == n) = true := by
        intro p hp
        obtain ⟨f,hf,hfp⟩ := mem_filterMap.mp hp
        obtain ⟨v,hv,rfl⟩ := Option.map_eq_some_iff.mp hfp
        simp only [beq_iff_eq]
        intro he
        exact h.1 (mem_map.mpr ⟨f,hf,he.trans hk.symm⟩)
      cases val with
      | none => simp [hk,find?_eq_none.mpr ha]
      | some v => simp [hk]
    · cases val with
      | none | some v => simpa [hk] using ih h.2

/-- A serialized record is read field by field. -/
theorem field_objectOf {n : String} {value : Option Json} (h : (fs.map Prod.fst).Nodup)
    (hf : (fs.find? fun f => f.1 == n.toList) = some (n.toList, value)) :
    field n (objectOf fs) = value := by
  refine (find?_objectOf h n.toList).trans ?_
  rw [hf,Option.bind_some]

section
variable (env : Environment)

def interpolateEntries (l : List (Text × Text)) : Option (List (Text × Text)) :=
  l.mapM fun p => (interpolate env p.2).map fun value => (p.1, value)

def interpolateTexts (l : List Text) : Option (List Text) := l.mapM (interpolate env)

def interpolateOptional : Option Text → Option (Option Text)
  | none => some none
  | some t => (interpolate env t).map some

def interpolateOptionalTexts : Option (List Text) → Option (Option (List Text))
  | none => some none
  | some l => (interpolateTexts env l).map some

def interpolateMount (m : MountOverride) : Option MountOverride := do
  let kind ← interpolate env m.kind
  let source ← interpolateOptional env m.source
  let target ← interpolate env m.target
  return ⟨kind,source,target,m.readOnly⟩

theorem readTexts_textsJson (l : List Text) :
    readTexts env (textsJson l) = interpolateTexts env l := by
  simp only [readTexts,textsJson,mapM_map]
  rfl

theorem readEntries_mapJson (m : OrderedMap Text Text) :
    readEntries env (mapJson m) = interpolateEntries env m.entries := by
  simp only [readEntries,mapJson,mapM_map]
  rfl

theorem optional_string (o : Option Text) :
    optional (readText env) (o.map .string) = interpolateOptional env o := by
  cases o <;> rfl

theorem optional_texts (o : Option (List Text)) :
    optional (readTexts env) (o.map textsJson) = interpolateOptionalTexts env o := by
  cases o with
  | none => rfl
  | some l => simp only [Option.map_some,optional,readTexts_textsJson]; rfl

theorem orEmpty_nonEmpty {A : Type} {B : Type} (rd : Json → Option (List B))
    (toJson : List A → Json) (f : A → Option B) (h : ∀ l, rd (toJson l) = l.mapM f)
    (l : List A) : orEmpty rd (nonEmpty toJson l) = l.mapM f := by
  cases l with
  | nil => rfl
  | cons a l => exact h (a::l)

theorem readMount_toJson (m : MountOverride) : readMount env m.toJson = interpolateMount env m := by
  have hk : ["type".toList,"source".toList,"target".toList,"read_only".toList].Nodup := by
    decide
  have hki : field "type" m.toJson = some (.string m.kind) := field_objectOf hk rfl
  have hs : field "source" m.toJson = m.source.map .string := field_objectOf hk rfl
  have ht : field "target" m.toJson = some (.string m.target) := field_objectOf hk rfl
  have hf : field "read_only" m.toJson = if m.readOnly then some (.bool true) else none :=
    field_objectOf hk rfl
  have hr : readFlag (if m.readOnly then some (.bool true) else none) = some m.readOnly := by
    cases m.readOnly <;> rfl
  simp only [readMount,hki,hs,ht,hf,hr,optional_string]
  rfl

theorem orEmpty_texts (l : List Text) :
    orEmpty (readTexts env) (nonEmpty textsJson l) = interpolateTexts env l :=
  orEmpty_nonEmpty (readTexts env) textsJson (interpolate env) (readTexts_textsJson env) l

theorem orEmpty_mounts (l : List MountOverride) : orEmpty (readMounts env)
    (nonEmpty (fun l => .array (l.map MountOverride.toJson)) l) = l.mapM (interpolateMount env) := by
  refine orEmpty_nonEmpty (readMounts env) _ (interpolateMount env) (fun l => ?_) l
  simp only [readMounts,mapM_map]
  congr 1
  funext m
  exact readMount_toJson env m

theorem orEmpty_entries (m : OrderedMap Text Text) : orEmpty (readEntries env)
    (if m.entries.isEmpty then none else some (mapJson m)) = interpolateEntries env m.entries := by
  split_ifs with hm
  · rw [isEmpty_iff.mp hm]
    rfl
  · exact readEntries_mapJson env m

variable {o : ServiceOverride}

/-- A serialized service is read as its interpolated fields. -/
theorem readService_eq_some {r : ServiceReading} : readService env o.toJson = some r ↔
      interpolateEntries env o.labels.entries = some r.labels ∧
      interpolateOptional env o.image = some r.image ∧
      interpolateOptional env o.workingDir = some r.workingDir ∧
      o.volumes.mapM (interpolateMount env) = some r.volumes ∧
      interpolateEntries env o.environment.entries = some r.environment ∧
      interpolateTexts env o.ports = some r.ports ∧
      interpolateOptional env o.user = some r.user ∧
      interpolateTexts env o.capAdd = some r.capAdd ∧
      interpolateTexts env o.securityOpt = some r.securityOpt ∧
      interpolateOptionalTexts env o.entrypoint = some r.entrypoint ∧
      interpolateOptionalTexts env o.command = some r.command := by
  have hk : ["labels".toList,"image".toList,"build".toList,"pull_policy".toList,
      "working_dir".toList,"volumes".toList,"environment".toList,"ports".toList,"user".toList,
      "init".toList,"privileged".toList,"cap_add".toList,"security_opt".toList,
      "entrypoint".toList,"command".toList].Nodup := by
    decide
  have hl : field "labels" o.toJson = some (mapJson o.labels) := field_objectOf hk rfl
  have hi : field "image" o.toJson = o.image.map .string := field_objectOf hk rfl
  have hd : field "working_dir" o.toJson = o.workingDir.map .string := field_objectOf hk rfl
  have hv : field "volumes" o.toJson =
      nonEmpty (fun l => .array (l.map MountOverride.toJson)) o.volumes := field_objectOf hk rfl
  have hen : field "environment" o.toJson =
      if o.environment.entries.isEmpty then none else some (mapJson o.environment) :=
    field_objectOf hk rfl
  have hp : field "ports" o.toJson = nonEmpty textsJson o.ports := field_objectOf hk rfl
  have hu : field "user" o.toJson = o.user.map .string := field_objectOf hk rfl
  have hc : field "cap_add" o.toJson = nonEmpty textsJson o.capAdd := field_objectOf hk rfl
  have hs : field "security_opt" o.toJson = nonEmpty textsJson o.securityOpt :=
    field_objectOf hk rfl
  have he : field "entrypoint" o.toJson = o.entrypoint.map textsJson := field_objectOf hk rfl
  have hco : field "command" o.toJson = o.command.map textsJson := field_objectOf hk rfl
  simp only [readService,hl,hi,hd,hv,hen,hp,hu,hc,hs,he,
    hco,orEmpty_texts,orEmpty_mounts,orEmpty_entries,optional_string,optional_texts]
  simp only [orEmpty,readEntries_mapJson,Option.bind_eq_bind,Option.bind_eq_some_iff,
    Option.pure_def,Option.some.injEq]
  constructor
  · rintro ⟨_,h1,_,h2,_,h3,_,h4,_,h5,_,h6,_,h7,_,h8,_,h9,_,h10,_,h11,rfl⟩
    exact ⟨h1,h2,h3,h4,h5,h6,h7,h8,h9,h10,h11⟩
  · rintro ⟨h1,h2,h3,h4,h5,h6,h7,h8,h9,h10,h11⟩
    exact ⟨_,h1,_,h2,_,h3,_,h4,_,h5,_,h6,_,h7,_,h8,_,h9,_,h10,_,h11,rfl⟩

def Kept (t : Text) : Prop := interpolate env t = some t

theorem interpolateTexts_eq_self {l : List Text} :
    interpolateTexts env l = some l ↔ ∀ t ∈ l, Kept env t :=
  mapM_eq_self

theorem interpolateEntries_eq_self {m : OrderedMap Text Text} :
    interpolateEntries env m.entries = some m.entries ↔ ∀ t ∈ m.values, Kept env t := by
  refine mapM_eq_self.trans ?_
  simp only [OrderedMap.values,forall_mem_map,Option.map_eq_some_iff,Kept]
  refine forall₂_congr fun p _ => ⟨?_,fun h => ⟨p.2,h,rfl⟩⟩
  rintro ⟨t,ht,hp⟩
  rwa [← congrArg Prod.snd hp] at ht ⊢

theorem interpolateOptional_eq_self {o : Option Text} :
    interpolateOptional env o = some o ↔ ∀ t ∈ o.toList, Kept env t := by
  cases o <;> simp [interpolateOptional,Kept]

theorem interpolateOptionalTexts_eq_self {o : Option (List Text)} :
    interpolateOptionalTexts env o = some o ↔ ∀ t ∈ o.getD [], Kept env t := by
  cases o with
  | none => simp [interpolateOptionalTexts]
  | some l =>
    rw [Option.getD_some,← interpolateTexts_eq_self]
    simp [interpolateOptionalTexts]

/-- The flag the renderer computes from the option names. -/
def rendersReadOnly (options : List MountOption) : Bool := options.any spelledReadOnly

theorem interpolateMount_mountOverride {m : PlannedMount} :
    interpolateMount env (mountOverride m) = some (plannedVolume m) ↔
      (∀ t ∈ m.target.value::m.source.toList, Kept env t) ∧
        rendersReadOnly m.options = saysReadOnly m.options := by
  have hk : interpolate env (mountOverride m).kind = some (kindText m.kind) := by
    show interpolate env (kindText m.kind) = _
    refine interpolate_of_not_mem env ?_
    cases m.kind <;> decide
  have hso := interpolateOptional_eq_self env (o := m.source)
  simp only [interpolateMount,hk,Option.bind_eq_bind,Option.bind_eq_some_iff,
    Option.pure_def,Option.some.injEq,plannedVolume,MountOverride.mk.injEq,
    forall_mem_cons,← hso]
  constructor
  · rintro ⟨_,rfl,_,hs,_,ht,-,rfl,rfl,hr⟩
    exact ⟨⟨ht,hs⟩,hr⟩
  · rintro ⟨⟨ht,hs⟩,hr⟩
    exact ⟨_,rfl,_,hs,_,ht,rfl,rfl,rfl,hr⟩

variable {inputs : ComposePlanningInputs}

theorem forall_mem_writtenTexts {P : Text → Prop} : (∀ t ∈ writtenTexts inputs, P t) ↔
      (∀ t ∈ (identityLabels inputs.identity).values, P t) ∧
      P inputs.runtime.workspace.folder.value ∧
      (∀ m ∈ plannedMounts inputs, ∀ t ∈ m.target.value::m.source.toList, P t) ∧
      (∀ t ∈ inputs.runtime.environment.container.values, P t) ∧
      (∀ t ∈ inputs.ports.publications.map (·.argument), P t) ∧
      P inputs.runtime.containerUser.value ∧
      (∀ t ∈ inputs.runtime.capAdd, P t) ∧ (∀ t ∈ inputs.runtime.securityOpt, P t) ∧
      (∀ t ∈ inputs.primaryOverride.entrypoint.getD [], P t) ∧
      ∀ t ∈ inputs.primaryOverride.command.getD [], P t := by
  simp only [writtenTexts,forall_mem_append,forall_mem_cons,forall_mem_flatMap,and_assoc]

/-- What the primary service needs to be read as planned under one environment. -/
theorem readService_primary : (∃ r, readService env (primaryOverride inputs).toJson = some r ∧
        r.labels = (identityLabels inputs.identity).entries ∧ CarriesPlan inputs r) ↔
      (∀ t ∈ writtenTexts inputs, Kept env t) ∧
        (∃ img, interpolateOptional env inputs.primaryOverride.image = some img) ∧
        ∀ m ∈ plannedMounts inputs, rendersReadOnly m.options = saysReadOnly m.options := by
  have hv : ((plannedMounts inputs).map mountOverride).mapM (interpolateMount env) =
      some ((plannedMounts inputs).map plannedVolume) ↔ _ := mapM_map_eq_some_map
  simp only [interpolateMount_mountOverride,forall_and] at hv
  have hs : ∀ t : Text, interpolateOptional env (some t) = some (some t) ↔ Kept env t := by
    intro t
    rw [interpolateOptional_eq_self]
    simp
  simp only [readService_eq_some,forall_mem_writtenTexts]
  constructor
  · rintro ⟨⟨⟩,⟨h1,h2,h3,h4,h5,h6,h7,h8,h9,h10,h11⟩,rfl,hc⟩
    obtain ⟨rfl,rfl,rfl,rfl,rfl,rfl,rfl,rfl,rfl⟩ := hc
    obtain ⟨hm,hf⟩ := hv.mp h4
    exact ⟨⟨(interpolateEntries_eq_self env).mp h1,(hs _).mp h3,hm,
      (interpolateEntries_eq_self env).mp h5,(interpolateTexts_eq_self env).mp h6,
      (hs _).mp h7,(interpolateTexts_eq_self env).mp h8,
      (interpolateTexts_eq_self env).mp h9,(interpolateOptionalTexts_eq_self env).mp h10,
      (interpolateOptionalTexts_eq_self env).mp h11⟩,⟨_,h2⟩,hf⟩
  · rintro ⟨⟨h1,h3,hm,h5,h6,h7,h8,h9,h10,h11⟩,⟨img,h2⟩,hf⟩
    refine ⟨⟨_,img,_,_,_,_,_,_,_,_,_⟩,⟨(interpolateEntries_eq_self env).mpr h1,h2,(hs _).mpr h3,
        hv.mpr ⟨hm,hf⟩,(interpolateEntries_eq_self env).mpr h5,
        (interpolateTexts_eq_self env).mpr h6,(hs _).mpr h7,
        (interpolateTexts_eq_self env).mpr h8,(interpolateTexts_eq_self env).mpr h9,
        (interpolateOptionalTexts_eq_self env).mpr h10,
        (interpolateOptionalTexts_eq_self env).mpr h11⟩,rfl,?_⟩
    exact ⟨rfl,rfl,rfl,rfl,rfl,rfl,rfl,rfl,rfl⟩

end

theorem kept_of_not_mem {t : Text} (h : '$' ∉ t) (env : Environment) : Kept env t :=
  interpolate_of_not_mem env h

theorem kept_unset {t : Text} : Kept unset t ↔ '$' ∉ t := interpolate_unset_eq_self

theorem interpolateOptional_readable (env : Environment) (o : Option Text) :
    (∃ r, interpolateOptional env o = some r) ↔
      ∀ t, o = some t → (interpolate unset t).isSome = true := by
  cases o with
  | none => simp [interpolateOptional]
  | some t =>
    rw [← Option.isSome_iff_exists]
    simp [interpolateOptional,isSome_interpolate env unset]

theorem namesReadOnly_of_spelled {opt : MountOption} (h : spelledReadOnly opt = true) :
    namesReadOnly opt.name = true := by
  simp only [spelledReadOnly,Bool.or_eq_true,beq_iff_eq] at h
  rcases h with h | h <;> rw [h] <;> decide

theorem rendersReadOnly_eq_saysReadOnly {options : List MountOption} :
    rendersReadOnly options = saysReadOnly options ↔ ReadOnlyPlain options := by
  unfold saysReadOnly ReadOnlyPlain rendersReadOnly
  cases hl : lastReadOnly options with
  | none =>
    have hn : ∀ opt ∈ options, ¬ namesReadOnly opt.name = true := by
      simpa [lastReadOnly] using hl
    have ha : options.any spelledReadOnly = false := by
      simp only [any_eq_false]
      exact fun opt ho hs => hn opt ho (namesReadOnly_of_spelled hs)
    simp [ha]
  | some l =>
    cases hv : isFalseValue l.value <;> simp [hv]

variable {sha256Hex : Text → Text} {encode : Json → Text} {decode : Text → Option Json}
variable {md : ComposeModel} {inputs : ComposePlanningInputs} {plan : ComposePlan}
variable {declared : List Text}

theorem isDeclared_plannedVolume {m : PlannedMount} :
    isDeclared declared (plannedVolume m) = true ↔
      (m.kind = .volume → ∀ src, m.source = some src → src = [] ∨ src ∈ declared) := by
  obtain ⟨kind,source,target,options⟩ := m
  cases kind with
  | bind => simp [isDeclared,plannedVolume,kindText]
  | volume => cases source <;> simp [isDeclared,plannedVolume,kindText]

/-- What is checked of the primary service is a property of the plan it carries. -/
theorem isConsistent_of_carriesPlan {r : ServiceReading} (h : CarriesPlan inputs r) :
    r.isConsistent declared = true ↔
      (∀ m ∈ plannedMounts inputs, m.kind = .volume →
        ∀ src, m.source = some src → src = [] ∨ src ∈ declared) ∧
      ((plannedMounts inputs).map (·.target.value)).Nodup ∧
      (inputs.ports.publications.map (·.argument)).Nodup ∧
      inputs.runtime.capAdd.Nodup ∧ inputs.runtime.securityOpt.Nodup := by
  have ht : ((plannedMounts inputs).map plannedVolume).map (·.target) =
      (plannedMounts inputs).map (·.target.value) := map_map
  simp only [ServiceReading.isConsistent,h.volumes,ht,h.ports,h.capAdd,h.securityOpt,
    Bool.and_eq_true,decide_eq_true_eq,all_map,all_eq_true,Function.comp_apply,
    isDeclared_plannedVolume,and_assoc]

theorem planCompose_eq_ok {scenario : ComposeScenario}
    (h : planCompose sha256Hex encode scenario md inputs = .ok plan) :
    scenario.service ∈ md.keys ∧ plan.primaryService = scenario.service ∧
      plan.overrideJson = encode (overrideDocument md scenario.service inputs) := by
  simp only [planCompose,renderOverride,bind_eq_ok,pure_eq_ok,require_eq_ok] at h
  obtain ⟨_,-,_,hm,_,-,_,-,_,⟨_,-,rfl⟩,rfl⟩ := h
  exact ⟨OrderedMap.contains_iff.mp hm,rfl,rfl⟩

theorem readOverride_document (env : Environment) {t : Text} {prim : Text}
    (h : decode t = some (overrideDocument md prim inputs)) :
    readOverride env declared decode t =
      ((overrideServices md prim inputs).entries.mapM fun p =>
        (readService env p.2.toJson).map fun r => (p.1, r)).filter
          fun svcs => svcs.all fun s => s.2.isConsistent declared := by
  have hf : field "services" (overrideDocument md prim inputs) = some (.object
      ((overrideServices md prim inputs).entries.map fun p => (p.1, p.2.toJson))) := rfl
  simp only [readOverride,h,Option.bind_some,hf,readServices,mapM_map]
  rfl

theorem mem_overrideServices {prim n : Text}
    (h : (n, o) ∈ (overrideServices md prim inputs).entries) :
    o = if n = prim then primaryOverride inputs
      else { labels := identityLabels inputs.identity } := by
  have hg := (OrderedMap.mem_entries _).mp h
  rw [overrideServices,OrderedMap.get?_mapValues] at hg
  obtain ⟨_,-,rfl⟩ := Option.map_eq_some_iff.mp hg
  rfl

theorem readService_labelled (env : Environment) {labels : OrderedMap Text Text}
    (h : ∀ t ∈ labels.values, Kept env t) :
    ∃ r, readService env ({ labels } : ServiceOverride).toJson = some r ∧
      r.labels = labels.entries ∧ r.isConsistent declared = true :=
  ⟨⟨labels.entries,none,none,[],[],[],none,[],[],none,none⟩,
    (readService_eq_some env).mpr ⟨(interpolateEntries_eq_self env).mpr h,rfl,rfl,rfl,rfl,rfl,
      rfl,rfl,rfl,rfl,rfl⟩,rfl,rfl⟩

section
variable {md : ComposeModel} {prim : Text} {inputs : ComposePlanningInputs}

/-- Of a file that was read, the services are the written ones, each read on its own. -/
theorem readService_of_mem {env : Environment} {t : Text}
    {svcs : List (Text × ServiceReading)} {r : ServiceReading}
    (hd : decode t = some (overrideDocument md prim inputs))
    (hre : readOverride env declared decode t = some svcs) (hr : (prim, r) ∈ svcs) :
    readService env (primaryOverride inputs).toJson = some r ∧ r.isConsistent declared = true := by
  rw [readOverride_document env hd,Option.filter_eq_some_iff] at hre
  refine ⟨?_,all_eq_true.mp hre.2 _ hr⟩
  obtain ⟨⟨n,o⟩,hm,ho⟩ := forall₂_mem_right (mapM_eq_some.mp hre.1) hr
  obtain ⟨r',hr',he⟩ := Option.map_eq_some_iff.mp ho
  cases he
  rwa [mem_overrideServices hm,if_pos rfl] at hr'

theorem overridePlain_of_reads (hmo : prim ∈ md.keys) (hp : plan.primaryService = prim)
    (hd : decode plan.overrideJson = some (overrideDocument md prim inputs))
    (h : ReadsAsPlanned declared decode md inputs plan) : OverridePlain declared inputs := by
  obtain ⟨svcs,hre,hla,r,hr,hc⟩ := h unset
  rw [hp] at hr
  obtain ⟨r',hr',hl⟩ := hla prim hmo
  obtain ⟨hr,hco⟩ := readService_of_mem hd hre hr
  obtain ⟨hr',-⟩ := readService_of_mem hd hre hr'
  cases hr.symm.trans hr'
  obtain ⟨hte,hi,hf⟩ := (readService_primary unset).mp ⟨r,hr,hl,hc⟩
  obtain ⟨hv,hta,hpo,hca,hse⟩ := (isConsistent_of_carriesPlan hc).mp hco
  exact ⟨fun t ht => kept_unset.mp (hte t ht),(interpolateOptional_readable unset _).mp hi,
    fun m hm => rendersReadOnly_eq_saysReadOnly.mp (hf m hm),hv,hta,hpo,hca,hse⟩

/-- Every written service can be read, with its labels; the primary one with the plan. -/
theorem readService_of_overridePlain (env : Environment) (h : OverridePlain declared inputs)
    {n : Text} (hme : (n, o) ∈ (overrideServices md prim inputs).entries) :
    ∃ r, readService env o.toJson = some r ∧ r.labels = (identityLabels inputs.identity).entries ∧
      r.isConsistent declared = true ∧ (n = prim → CarriesPlan inputs r) := by
  have hk : ∀ t ∈ writtenTexts inputs, Kept env t := fun t ht => kept_of_not_mem (h.texts t ht) env
  rw [mem_overrideServices hme]
  split_ifs with hn
  · obtain ⟨r,hr,hl,hc⟩ := (readService_primary env).mpr
      ⟨hk,(interpolateOptional_readable env _).mpr h.image,
        fun m hm => rendersReadOnly_eq_saysReadOnly.mpr (h.readOnly m hm)⟩
    exact ⟨r,hr,hl,(isConsistent_of_carriesPlan hc).mpr
      ⟨h.volumes,h.targets,h.ports,h.capAdd,h.securityOpt⟩,fun _ => hc⟩
  · obtain ⟨r,hr,hl,hco⟩ := readService_labelled env (forall_mem_writtenTexts.mp hk).1
    exact ⟨r,hr,hl,hco,fun hp => absurd hp hn⟩

theorem reads_of_overridePlain (hm : prim ∈ md.keys) (hpr : plan.primaryService = prim)
    (hd : decode plan.overrideJson = some (overrideDocument md prim inputs))
    (h : OverridePlain declared inputs) : ReadsAsPlanned declared decode md inputs plan := by
  intro env
  obtain ⟨svcs,hs⟩ := exists_mapM_eq_some
    (f := fun p : Text × ServiceOverride => (readService env p.2.toJson).map fun r => (p.1, r))
    (l := (overrideServices md prim inputs).entries) (fun p hp => by
      obtain ⟨r,hr,-⟩ := readService_of_overridePlain env h hp
      exact ⟨_,Option.map_eq_some_iff.mpr ⟨r,hr,rfl⟩⟩)
  have hna : ∀ n ∈ md.keys, ∃ r, (n, r) ∈ svcs ∧
      r.labels = (identityLabels inputs.identity).entries ∧
      (n = prim → CarriesPlan inputs r) := by
    intro n hn
    rw [← OrderedMap.keys_mapValues (fun n _ => if n = prim then primaryOverride inputs
      else { labels := identityLabels inputs.identity })] at hn
    obtain ⟨⟨_,o⟩,ho,rfl⟩ := mem_map.mp hn
    obtain ⟨r,hr,hl,-,hc⟩ := readService_of_overridePlain env h ho
    obtain ⟨b,hb,hbr⟩ := forall₂_mem_left (mapM_eq_some.mp hs) ho
    obtain ⟨r',hr',rfl⟩ := Option.map_eq_some_iff.mp hbr
    cases hr.symm.trans hr'
    exact ⟨r,hb,hl,hc⟩
  have hco : svcs.all fun s => s.2.isConsistent declared := by
    refine all_eq_true.mpr fun s hs' => ?_
    obtain ⟨⟨_,o⟩,ho,hos⟩ := forall₂_mem_right (mapM_eq_some.mp hs) hs'
    obtain ⟨r,hr,-,hrc,-⟩ := readService_of_overridePlain env h ho
    obtain ⟨r',hr',rfl⟩ := Option.map_eq_some_iff.mp hos
    cases hr.symm.trans hr'
    exact hrc
  have hre := (readOverride_document env hd).trans (Option.filter_eq_some_iff.mpr ⟨hs,hco⟩)
  refine ⟨svcs,hre,fun n hn => ?_,?_⟩
  · obtain ⟨r,hr,hl,-⟩ := hna n hn
    exact ⟨r,hr,hl⟩
  · obtain ⟨r,hr,-,hc⟩ := hna prim hm
    exact ⟨r,hpr ▸ hr,hc rfl⟩

end

/-- Where the written bytes are read back as the document, Compose reads the plan under
every environment exactly when the planned texts and options are plain, the mounted volumes
are declared and nothing is listed twice. -/
theorem planCompose_override_reads_iff {scenario : ComposeScenario} {model : ComposeModel}
    {inputs : ComposePlanningInputs} {plan : ComposePlan}
    (hplan : planCompose sha256Hex encode scenario model inputs = .ok plan)
    (hdecode : decode plan.overrideJson = some (overrideDocument model scenario.service inputs)) :
    ReadsAsPlanned declared decode model inputs plan ↔ OverridePlain declared inputs := by
  obtain ⟨hm,hp,-⟩ := planCompose_eq_ok hplan
  exact ⟨overridePlain_of_reads hm hp hdecode,reads_of_overridePlain hm hp hdecode⟩

def sampleScenario : ComposeScenario where
  files := ["compose.yaml"]
  service := "app"
  workspaceFolder := "/workspaces/app"

def sampleModel : ComposeModel :=
  .ofList [("app", { dependencies := OrderedSet.extend .empty ["db"] }),
    ("db", { image := some "postgres:16" })]

/-- A plan with one container variable, PASSWORD, a read-only volume beside a writable bind
mount, and one port published over both protocols. -/
def sampleInputs (password : String) : ComposePlanningInputs where
  identity := ⟨"host","main","g1","default"⟩
  runtime := { RuntimePlan.sample with
    mounts := [⟨.volume,some "cache",⟨"/var/cache/app",by decide⟩,[⟨"readonly",none⟩]⟩,
      ⟨.bind,some "/srv/data",⟨"/srv/data",by decide⟩,[]⟩]
    environment := ⟨.ofList [("PASSWORD", password.toList)],.empty⟩
    overrideCommand := false
    capAdd := ["SYS_PTRACE"] }
  ports :=
    { publications :=
        [⟨"3000:3000",.allInterfaces,some ⟨.sample,.sample⟩,⟨.sample,.sample⟩,.tcp⟩,
         ⟨"3000:3000/udp",.allInterfaces,some ⟨.sample,.sample⟩,⟨.sample,.sample⟩,.udp⟩] }

/-- A reader that knows the compact text of one document. -/
def decodeOnly (document : Json) (text : Text) : Option Json :=
  if text = JsonText.render document then some document else none

theorem decodeOnly_override (hash : Text → Text) (password : String)
    (h : planCompose hash JsonText.render sampleScenario sampleModel (sampleInputs password) =
      .ok plan) :
    decodeOnly (overrideDocument sampleModel "app" (sampleInputs password))
      plan.overrideJson = some (overrideDocument sampleModel "app" (sampleInputs password)) := by
  obtain ⟨-,-,hj⟩ := planCompose_eq_ok h
  exact if_pos hj

theorem planCompose_override_reads_plain :
    ∃ plan, planCompose id JsonText.render sampleScenario sampleModel (sampleInputs "secret") =
        .ok plan ∧
      ReadsAsPlanned ["cache"]
        (decodeOnly (overrideDocument sampleModel "app" (sampleInputs "secret")))
        sampleModel (sampleInputs "secret") plan := by
  refine exists_ok_and (P := fun _ => True) (by decide +kernel) fun plan hp _ =>
    (planCompose_override_reads_iff hp (decodeOnly_override id "secret" hp)).mpr
      ⟨by decide +kernel,?_,?_,?_,by decide +kernel,by decide +kernel,by decide +kernel,
        by decide +kernel⟩
  · rintro img ⟨⟩
  · intro m hm
    simp only [plannedMounts,sampleInputs,mem_cons,not_mem_nil,or_false] at hm
    rcases hm with rfl | rfl | rfl
    · trivial
    · exact ⟨_,mem_singleton_self _,by decide⟩
    · trivial
  · intro m hm hv src hs
    simp only [plannedMounts,sampleInputs,mem_cons,not_mem_nil,or_false] at hm
    rcases hm with rfl | rfl | rfl
    · cases hv
    · cases hs
      exact .inr (mem_singleton_self _)
    · cases hv

/-- A dollar sign in a container variable is written as it is and read as an escape. -/
theorem planCompose_override_dollar :
    ∃ plan, planCompose id JsonText.render sampleScenario sampleModel (sampleInputs "a$$b") =
        .ok plan ∧
      ¬ ReadsAsPlanned ["cache"]
        (decodeOnly (overrideDocument sampleModel "app" (sampleInputs "a$$b")))
        sampleModel (sampleInputs "a$$b") plan := by
  refine exists_ok_and (P := fun plan => ((readOverride unset ["cache"]
    (decodeOnly (overrideDocument sampleModel "app" (sampleInputs "a$$b")))
      plan.overrideJson).map fun svcs => svcs.map fun s => s.2.environment) =
        some [[("PASSWORD".toList, "a$b".toList)],[]]) (by decide +kernel)
    fun plan _ hre h => ?_
  obtain ⟨svcs,hs,-,r,hr,hc⟩ := h unset
  rw [hs] at hre
  have hre : svcs.map (fun s => s.2.environment) = _ := Option.some.inj hre
  have hm := mem_map_of_mem (f := fun s : Text × ServiceReading => s.2.environment) hr
  rw [hre,hc.environment] at hm
  exact absurd hm (by decide +kernel)

end Cdenv.ComposeOverride
