import Cdenv.TextScan

/-!
# Identities

Installations, profiles, workspaces and generations name the resources of one
environment.
-/
namespace Cdenv.Identity
open TextScan

/-- ASCII alphanumeric at both ends; `-`, `_` and `.` in between. -/
def isIdentityToken (value : Text) : Bool :=
  value.head?.any Char.isAlphanum && value.getLast?.any Char.isAlphanum &&
    value.all fun c => c.isAlphanum || c == '-' || c == '_' || c == '.'

/-- At most 63 lowercase letters, digits and inner hyphens. -/
def isWorkspaceName (value : Text) : Bool :=
  value.head?.any Char.isAlphanum && value.getLast?.any Char.isAlphanum &&
    (value.all fun c => c.isLower || c.isDigit || c == '-') && value.length ≤ 63

/-- The text is validated where it enters, and the validity travels with the value. -/
structure IdentityToken where
  value : Text
  valid : isIdentityToken value = true
deriving DecidableEq

structure WorkspaceName where
  value : Text
  valid : isWorkspaceName value = true
deriving DecidableEq

structure GenerationId where
  value : ℕ
  positive : 0 < value
deriving DecidableEq

structure DockerResourceIdentity where
  installation : IdentityToken
  workspace : WorkspaceName
  generation : GenerationId
  profile : IdentityToken

def WorkspaceName.sample : WorkspaceName := ⟨"main",by decide⟩

def GenerationId.first : GenerationId := ⟨1,Nat.one_pos⟩

namespace DockerResourceIdentity

/-- The identity in the samples of the later modules. -/
def sample : DockerResourceIdentity := ⟨⟨"inst",by decide⟩,.sample,.first,⟨"v1",by decide⟩⟩

def labelEntries (identity : DockerResourceIdentity) : List (Text × Text) :=
  [("cdenv.installation", identity.installation.value),
    ("cdenv.workspace", identity.workspace.value),
    ("cdenv.generation", decimal identity.generation.value),
    ("cdenv.profile", identity.profile.value)]

def labels (identity : DockerResourceIdentity) : List Text :=
  identity.labelEntries.map fun p => p.1++ '='::p.2

def generatedImageLabels (identity : DockerResourceIdentity) : List Text :=
  identity.labels++["cdenv.generated=true".toList]

end DockerResourceIdentity

end Cdenv.Identity
