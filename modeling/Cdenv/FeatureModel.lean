import Cdenv.FeatureReference
import Cdenv.Profile

/-!
# Features: metadata, packages and effective options

Options are checked against the metadata's definitions and completed with their defaults
before anything else sees them.
-/
namespace Cdenv

inductive FeatureValue where
  | boolean (value : Bool)
  | string (value : Text)
deriving DecidableEq

namespace FeatureValue

def rank : FeatureValue → ℕ ×ₗ Text
  | .boolean false => toLex (0, [])
  | .boolean true => toLex (1, [])
  | .string v => toLex (2, v)

theorem rank_injective : Function.Injective rank := by
  rintro ((_ | _) | _) ((_ | _) | _) h <;> simp_all [rank]

/-- The derived order: booleans before strings. -/
instance : LinearOrder FeatureValue := LinearOrder.lift' rank rank_injective

end FeatureValue

abbrev FeatureOptions := OrderedMap Text FeatureValue

inductive FeatureOption where
  | boolean (default : Bool)
  | string (default : Text) (allowed : Option (OrderedSet Text))

structure FeatureContributions where
  containerEnv : OrderedMap Text Text := .empty
  mounts : List RawMount := []
  capAdd : List Text := []
  securityOpt : List Text := []
  entrypoint : Option Text := none
  lifecycle : LifecycleCommands := {}
  customizations : OrderedMap Text Json := .empty
  init : Option Bool := none
  privileged : Option Bool := none

structure FeatureMetadata where
  (id version : Text)
  options : OrderedMap Text FeatureOption := .empty
  dependsOn : OrderedMap FeatureReference FeatureOptions := .empty
  installsAfter : List Text := []
  contributions : FeatureContributions := {}

/-- An already fetched Feature: the reference it was requested by, the identity of its content and
its validated metadata. -/
structure FeaturePackage where
  reference : FeatureReference
  identity : FeatureInstallIdentity
  metadata : FeatureMetadata
  digest : Option Text := none
  integrity : Option Text := none

abbrev FeatureCatalog := OrderedMap FeatureReference FeaturePackage

structure FeatureRequest where
  reference : FeatureReference
  options : FeatureOptions := .empty
deriving DecidableEq

structure ResolvedFeature where
  reference : FeatureReference
  identity : FeatureInstallIdentity
  metadata : FeatureMetadata
  options : FeatureOptions

structure ResolvedFeatures where
  installationOrder : List ResolvedFeature

inductive FeatureError where
  | missingPackage (reference : FeatureReference) (path : Text)
  | catalogMismatch (key package : FeatureReference)
  | unknownOption (feature option path : Text)
  | invalidOption (feature option : Text) (value : FeatureValue) (path : Text)
  | conflictingOptions (identity : FeatureInstallIdentity) (option firstPath secondPath : Text)
  | invalidOverride (reference : Text) (message : String)
  | dependencyCycle (cycle : Text)
  | invalidLock (message : String)
  | staleLock
deriving DecidableEq

def renderPath (path : List FeatureReference) : Text :=
  List.intercalate " -> " (path.map FeatureReference.asStr)

namespace FeatureOption

def defaultValue : FeatureOption → FeatureValue
  | .boolean default => .boolean default
  | .string default _ => .string default

/-- A value fits its definition; an absent enumeration allows every string. -/
def accepts : FeatureOption → FeatureValue → Bool
  | .boolean _, .boolean _ => true
  | .string _ allowed, .string value => allowed.all fun set => set.contains value
  | _, _ => false

end FeatureOption

def effectiveEntries (metadata : FeatureMetadata) (provided : FeatureOptions)
    (path : List FeatureReference) :
    List (Text × FeatureOption) → FeatureOptions → Except FeatureError FeatureOptions
  | [], effective => .ok effective
  | (name, definition)::rest, effective =>
    let value := (provided.get? name).getD definition.defaultValue
    if definition.accepts value then
      effectiveEntries metadata provided path rest (effective.insert name value)
    else .error (.invalidOption metadata.id name value (renderPath path))

/-- The first unknown name, then the first invalid value in key order, is the reported failure. -/
def validateOptions (metadata : FeatureMetadata) (provided : FeatureOptions)
    (path : List FeatureReference) : Except FeatureError FeatureOptions :=
  match provided.keys.find? fun name => !metadata.options.contains name with
  | some name => .error (.unknownOption metadata.id name (renderPath path))
  | none => effectiveEntries metadata provided path metadata.options.entries .empty

end Cdenv
