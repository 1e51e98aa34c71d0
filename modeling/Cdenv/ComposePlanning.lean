import Cdenv.PortPlanning
import Cdenv.RuntimePlanning

/-!
# Compose planning

The isolated project, its service set and the override file. The override is a record per service,
serialized with empty fields left out; the bytes are the outside serializer's, which enters as the
parameter `encode`.
-/
namespace Cdenv.ComposePlanning
open TextScan Fallible RuntimePlanning PortPlanning List

structure ComposeIdentity where
  (installation workspace generation profile : Text)

structure ComposeServiceModel where
  image : Option Text := none
  hasBuild : Bool := false
  dependencies : OrderedSet Text := .empty
  user : Option Text := none

abbrev ComposeModel := OrderedMap Text ComposeServiceModel

structure ComposePrimaryOverride where
  image : Option Text := none
  entrypoint : Option (List Text) := none
  command : Option (List Text) := none

structure ComposePlanningInputs where
  identity : ComposeIdentity
  runtime : RuntimePlan
  ports : PortPlan
  primaryOverride : ComposePrimaryOverride := {}

structure ComposePlan where
  (projectName primaryService : Text)
  (requestedServices managedServices : List Text)
  overrideJson : Text

inductive ComposePlanningError where
  | missingPrimary (service : Text)
  | missingRunService (service : Text)
  | missingDependency (service dependency : Text)
  | invalidIdentity (field : Text)

/-- Full lowercase mapping as far as ASCII results go: U+0130 and U+212A are the only
other characters with an ASCII letter in their lowercase. -/
def toLowercase (c : Char) : Text :=
  if c = '\u0130' then ['i','\u0307'] else if c = '\u212a' then ['k'] else [c.toLower]

/-- Runs of other characters become one separator; none at either end. -/
def safeProjectComponent (value : Text) : Text :=
  let output := (value.flatMap toLowercase).foldl (fun (output : Text) c =>
    if c.isAlphanum then output++[c]
    else if output.isEmpty || output.getLast? == some '-' then output
    else output++['-']) []
  let output := trimEndMatches '-' output
  if output.isEmpty then ['x'] else output

/-- A long name is cut and given a part of its digest. The hexadecimal SHA-256 of a text is the
parameter `sha256Hex`. -/
def composeProjectName (sha256Hex : Text → Text) (installation workspace : Text) : Text :=
  let canonical := "cdenv-"++safeProjectComponent installation ++
    '-'::safeProjectComponent workspace
  if canonical.length ≤ 63 then canonical
  else
    (canonical.take 50).rdropWhile (fun c => c == '-' || c == '_') ++
      '-'::(sha256Hex canonical).take 12

def validateIdentity (identity : ComposeIdentity) : Except ComposePlanningError Unit :=
  let fields : List (String × Text) :=
    [("installation", identity.installation),("workspace", identity.workspace),
      ("generation", identity.generation),("profile", identity.profile)]
  match fields.find? fun f => f.2.isEmpty || f.2.any isControl with
  | some f => .error (.invalidIdentity f.1.toList)
  | none => .ok ()

/-- Managed services and the stack of services still to expand. -/
structure Closure where
  managed : OrderedSet Text
  pending : List Text

def addDependency (model : ComposeModel) (service : Text) (s : Closure) (dependency : Text) :
    Except ComposePlanningError Closure := do
  require (model.contains dependency) (.missingDependency service dependency)
  if s.managed.contains dependency then return s
  else return ⟨s.managed.insertKey dependency,s.pending++[dependency]⟩

/-- The last pending service is taken; every pending service is in the model. -/
def closureStep (model : ComposeModel) (s : Closure) :
    Closure ⊕ Except ComposePlanningError (OrderedSet Text) :=
  match s.pending.getLast? with
  | none => .inr (.ok s.managed)
  | some service =>
    let definition := (model.get? service).getD {}
    match definition.dependencies.keys.foldlM (addDependency model service)
        ⟨s.managed,s.pending.dropLast⟩ with
    | .error e => .inr (.error e)
    | .ok t => .inl t

/-- Services of the model that are not managed yet. -/
def unmanaged (model : ComposeModel) (managed : OrderedSet Text) : ℕ :=
  (model.keys.filter fun name => !managed.contains name).length

def closureMeasure (model : ComposeModel) (s : Closure) : ℕ :=
  s.pending.length+unmanaged model s.managed

variable {md : ComposeModel}

theorem unmanaged_insertKey {managed : OrderedSet Text} {n : Text} (hm : n ∈ md.keys)
    (hn : managed.contains n = false) :
    unmanaged md (managed.insertKey n) < unmanaged md managed := by
  have hi : ∀ k, (managed.insertKey n).contains k = (k == n || managed.contains k) := by
    intro k
    rw [Bool.eq_iff_iff]
    simp only [OrderedMap.contains_iff,OrderedSet.mem_insertKey,Bool.or_eq_true,beq_iff_eq]
  have hf : (md.keys.filter fun k => !(managed.insertKey n).contains k) =
      (md.keys.filter fun k => !managed.contains k).filter (· != n) := by
    rw [filter_filter]
    refine filter_congr fun k _ => ?_
    rw [hi,Bool.not_or]
    rfl
  unfold unmanaged
  rw [hf]
  exact length_filter_lt_length_iff_exists.mpr ⟨n,mem_filter.mpr ⟨hm,by rw [hn]; rfl⟩,by simp⟩

/-- A dependency that is new moves one service from unmanaged to pending. -/
theorem addDependency_measure {svc dep : Text} {s t : Closure}
    (h : addDependency md svc s dep = .ok t) :
    closureMeasure md t ≤ closureMeasure md s := by
  simp only [addDependency,bind_eq_ok,require_eq_ok] at h
  obtain ⟨-,hmo,h⟩ := h
  split_ifs at h with hm
  · exact (pure_eq_ok.mp h ▸ le_rfl)
  · rw [← pure_eq_ok.mp h]
    have := unmanaged_insertKey (OrderedMap.contains_iff.mp hmo) (Bool.not_eq_true _ ▸ hm)
    simp only [closureMeasure,length_append,length_singleton]
    omega

theorem closureStep_decreases {s t : Closure} (h : closureStep md s = .inl t)
    : closureMeasure md t < closureMeasure md s := by
  unfold closureStep at h
  split at h
  · cases h
  · next svc hl =>
    dsimp only at h
    split at h
    · cases h
    · next t' hf =>
      cases h
      have hne : s.pending ≠ [] := by
        intro he
        simp [he] at hl
      have hp := foldlM_invariant
        (I := fun u => closureMeasure md u ≤ closureMeasure md ⟨s.managed,s.pending.dropLast⟩)
        (fun d _ u u' hu hs => (addDependency_measure hs).trans hu) le_rfl hf
      have hle := length_pos_of_ne_nil hne
      simp only [closureMeasure,length_dropLast] at hp ⊢
      omega

def closure (model : ComposeModel) : Loop Closure (Except ComposePlanningError (OrderedSet Text)) where
  step := closureStep model
  measure := closureMeasure model
  decreases := closureStep_decreases

def dependencyClosure (model : ComposeModel) (requested : OrderedSet Text) :
    Except ComposePlanningError (OrderedSet Text) :=
  (closure model).run ⟨requested,requested.keys⟩

structure MountOverride where
  kind : Text
  source : Option Text
  target : Text
  readOnly : Bool

/-- The override of one service. Empty fields are not serialized. -/
structure ServiceOverride where
  labels : OrderedMap Text Text
  image : Option Text := none
  build : Option Json := none
  pullPolicy : Option Text := none
  workingDir : Option Text := none
  volumes : List MountOverride := []
  environment : OrderedMap Text Text := .empty
  ports : List Text := []
  user : Option Text := none
  init : Option Bool := none
  privileged : Option Bool := none
  capAdd : List Text := []
  securityOpt : List Text := []
  entrypoint : Option (List Text) := none
  command : Option (List Text) := none

def mountOverride (mount : PlannedMount) : MountOverride where
  kind :=
    match mount.kind with
    | .bind => "bind"
    | .volume => "volume"
  source := mount.source
  target := mount.target.value
  readOnly := mount.options.any fun option =>
    option.name == "readonly" || option.name == "ro"

def identityLabels (identity : ComposeIdentity) : OrderedMap Text Text :=
  .ofList [("cdenv.generation", identity.generation),
    ("cdenv.installation", identity.installation),
    ("cdenv.profile", identity.profile),
    ("cdenv.workspace", identity.workspace)]

/-- What the override says of the primary service. -/
def primaryOverride (inputs : ComposePlanningInputs) : ServiceOverride where
  labels := identityLabels inputs.identity
  image := inputs.primaryOverride.image
  build := inputs.primaryOverride.image.map fun _ => .null
  pullPolicy := inputs.primaryOverride.image.map fun _ => "never"
  workingDir := some inputs.runtime.workspace.folder.value
  volumes := mountOverride inputs.runtime.workspace.mount::inputs.runtime.mounts.map mountOverride
  environment := inputs.runtime.environment.container
  ports := inputs.ports.publications.map (·.argument)
  user := some inputs.runtime.containerUser.value
  init := if inputs.runtime.init then some true else none
  privileged := if inputs.runtime.privileged then some true else none
  capAdd := inputs.runtime.capAdd
  securityOpt := inputs.runtime.securityOpt
  entrypoint := inputs.primaryOverride.entrypoint
  command := inputs.primaryOverride.command

/-- An object without its absent fields. -/
def objectOf (fields : List (Text × Option Json)) : Json :=
  .object (fields.filterMap fun f => f.2.map fun value => (f.1, value))

def textsJson (texts : List Text) : Json := .array (texts.map .string)

def mapJson (entries : OrderedMap Text Text) : Json :=
  .object (entries.entries.map fun p => (p.1, .string p.2))

def nonEmpty {A : Type} (toJson : List A → Json) (items : List A) : Option Json :=
  if items.isEmpty then none else some (toJson items)

def MountOverride.toJson (m : MountOverride) : Json :=
  objectOf [("type", some (.string m.kind)),
    ("source", m.source.map .string),
    ("target", some (.string m.target)),
    ("read_only", if m.readOnly then some (.bool true) else none)]

def ServiceOverride.toJson (o : ServiceOverride) : Json :=
  objectOf [("labels", some (mapJson o.labels)),
    ("image", o.image.map .string),
    ("build", o.build),
    ("pull_policy", o.pullPolicy.map .string),
    ("working_dir", o.workingDir.map .string),
    ("volumes", nonEmpty (fun l => .array (l.map MountOverride.toJson)) o.volumes),
    ("environment", if o.environment.entries.isEmpty then none else some (mapJson o.environment)),
    ("ports", nonEmpty textsJson o.ports),
    ("user", o.user.map .string),
    ("init", o.init.map .bool),
    ("privileged", o.privileged.map .bool),
    ("cap_add", nonEmpty textsJson o.capAdd),
    ("security_opt", nonEmpty textsJson o.securityOpt),
    ("entrypoint", o.entrypoint.map textsJson),
    ("command", o.command.map textsJson)]

/-- Every modelled service is labelled; the primary one carries the plan. -/
def overrideServices (model : ComposeModel) (primary : Text) (inputs : ComposePlanningInputs) :
    OrderedMap Text ServiceOverride :=
  model.mapValues fun name _ =>
    if name = primary then primaryOverride inputs else { labels := identityLabels inputs.identity }

def overrideDocument (model : ComposeModel) (primary : Text) (inputs : ComposePlanningInputs) :
    Json :=
  .object [("services",
    .object ((overrideServices model primary inputs).entries.map fun p => (p.1, p.2.toJson)))]

def validateRunServices (model : ComposeModel) (requested : List Text) :
    Except ComposePlanningError Unit :=
  match requested.find? fun service => !model.contains service with
  | some service => .error (.missingRunService service)
  | none => .ok ()

section
variable (sha256Hex : Text → Text) (encode : Json → Text)

def renderOverride (model : ComposeModel) (primary : Text) (inputs : ComposePlanningInputs) :
    Except ComposePlanningError Text := do
  require (model.contains primary) (.missingPrimary primary)
  return encode (overrideDocument model primary inputs)

/-- The managed services are closed under dependency. -/
def planCompose (scenario : ComposeScenario) (model : ComposeModel)
    (inputs : ComposePlanningInputs) : Except ComposePlanningError ComposePlan := do
  validateIdentity inputs.identity
  require (model.contains scenario.service) (.missingPrimary scenario.service)
  let requested := scenario.runServices.getD model.keys
  validateRunServices model requested
  let requestedServices := OrderedSet.insertKey (OrderedSet.extend .empty requested) scenario.service
  let managedServices ← dependencyClosure model requestedServices
  let overrideJson ← renderOverride encode model scenario.service inputs
  return {
    projectName :=
      composeProjectName sha256Hex inputs.identity.installation inputs.identity.workspace
    primaryService := scenario.service
    requestedServices := requestedServices.keys
    managedServices := managedServices.keys
    overrideJson }

end

end Cdenv.ComposePlanning
