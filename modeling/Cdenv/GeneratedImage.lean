import Cdenv.FeatureModel
import Cdenv.LabelText
import Cdenv.ShellRun

/-!
# Generated images

The Dockerfile that installs resolved Features: one copy and one run layer for each,
an optional layer that updates the user, and the labels. The text of the metadata value is
the outside serializer's and enters as the parameter `encode`.
-/
namespace Cdenv.GeneratedImage
open TextScan Fallible LabelText ShellQuoting

structure GeneratedContextFile where
  path : Text
  contents : List ℕ

structure GeneratedFeature where
  resolved : ResolvedFeature
  files : List GeneratedContextFile

structure GeneratedUidGidUpdate where
  (helper manifest : List ℕ)

structure GeneratedImagePlan where
  dockerfile : Text
  files : List GeneratedContextFile

inductive GeneratedImageError where
  | unsafeFeaturePath (feature path : Text)
  | missingInstallScript (feature : Text)
  | unsafeDockerfileInput (field : String)

def metadataLabel : Text := "devcontainer.metadata"

def agentContextPath : Text := ".cdenv/cdenv-agent"

def updateContextPath : Text := ".cdenv/update-user.json"

def validBaseImage (image : Text) : Bool :=
  !(image.isEmpty || image.head? == some '-' || image.any isWhitespace || image.any isControl)

/-- Equality of paths looks at components: a separator at the end and a later `.` do
not count. -/
def isInstallScript (path : Text) : Bool :=
  match path.splitOn '/' with
  | [] => false
  | first::rest =>
    first::rest.filter (fun part => !(part.isEmpty || part == ".".toList)) == ["install.sh".toList]

def safeFeaturePath (path : Text) : Bool :=
  !(path.isEmpty || path.head? == some '/' ||
    (path.splitOn '/').any fun part => part.isEmpty || part == "." || part == "..")

def validEnvironmentName (value : Text) : Bool := isName value

def validLabelKey (value : Text) : Bool :=
  !value.isEmpty && value.all fun c => c.isAlphanum || c == '.' || c == '_' || c == '-'

def optionText : FeatureValue → Text
  | .boolean true => "true"
  | .boolean false => "false"
  | .string value => value

def renderOption : FeatureValue → Text
  | .boolean value => optionText (.boolean value)
  | .string value => shellQuote value

def assignmentText (name : Text) (value : FeatureValue) : Text :=
  toAsciiUppercase name++ '='::renderOption value++[' ']

def featureAssignments (options : FeatureOptions) : Except GeneratedImageError Text :=
  options.entries.foldlM (fun assignments option => do
    require (validEnvironmentName (toAsciiUppercase option.1))
      (.unsafeDockerfileInput "Feature option name")
    return assignments++assignmentText option.1 option.2) []

def line (keyword : String) (argument : Text) : Text := keyword.toList++ ' '::argument++['\n']

def contextDirectory (index : ℕ) : Text := "features/"++decimal index

def installDirectory (index : ℕ) : Text := "/tmp/cdenv-feature-"++decimal index

def copyArgument (index : ℕ) : Text :=
  "--chown=0:0 "++contextDirectory index++"/ "++installDirectory index++['/']

def featureScript (index : ℕ) (assignments : Text) : Text :=
  "cd "++installDirectory index++" && "++assignments ++
    "/bin/sh ./install.sh && cd / && rm -rf "++installDirectory index

def contextFile (feature : GeneratedFeature) (index : ℕ) (file : GeneratedContextFile) :
    Except GeneratedImageError GeneratedContextFile := do
  require (safeFeaturePath file.path)
    (.unsafeFeaturePath feature.resolved.metadata.id file.path)
  return ⟨contextDirectory index++ '/'::file.path,file.contents⟩

def featureLayer (feature : GeneratedFeature) (index : ℕ) :
    Except GeneratedImageError GeneratedImagePlan := do
  require (feature.files.any fun file => isInstallScript file.path)
    (.missingInstallScript feature.resolved.metadata.id)
  let files ← feature.files.mapM (contextFile feature index)
  let assignments ← featureAssignments feature.resolved.options
  return ⟨line "COPY" (copyArgument index)++line "RUN" (featureScript index assignments),files⟩

def agentArgument : Text :=
  "--chown=0:0 --chmod=0555 "++agentContextPath++" /tmp/cdenv-agent"

def manifestArgument : Text :=
  "--chown=0:0 --chmod=0444 "++updateContextPath++" /tmp/cdenv-update-user.json"

def updateScript : Text :=
  ("/tmp/cdenv-agent update-user /tmp/cdenv-update-user.json && " ++
    "rm -f /tmp/cdenv-agent /tmp/cdenv-update-user.json").toList

def updateLayer : Option GeneratedUidGidUpdate → GeneratedImagePlan
  | none => ⟨[],[]⟩
  | some update =>
    ⟨line "COPY" agentArgument++line "COPY" manifestArgument++line "RUN" updateScript,
      [⟨agentContextPath,update.helper⟩,⟨updateContextPath,update.manifest⟩]⟩

section
variable (printable : Char → Bool) (encode : Json → Text)

def labelArgument (key value : Text) : Text := key++ '='::debugQuote printable value

def labelLine (label : Text × Text) : Except GeneratedImageError Text := do
  require (label.1 != metadataLabel && validLabelKey label.1) (.unsafeDockerfileInput "label")
  return line "LABEL" (labelArgument printable label.1 label.2)

/-- The Dockerfile and its context. -/
def newWithUidUpdate (baseImage : Text) (features : List GeneratedFeature) (metadata : Json)
    (labels : OrderedMap Text Text) (uidUpdate : Option GeneratedUidGidUpdate) :
    Except GeneratedImageError GeneratedImagePlan := do
  require (validBaseImage baseImage) (.unsafeDockerfileInput "base image")
  let layers ← features.zipIdx.mapM fun p => featureLayer p.1 p.2
  let update := updateLayer uidUpdate
  let labelLines ← labels.entries.mapM (labelLine printable)
  return {
    dockerfile := line "FROM" baseImage++line "USER" "root" ++
      layers.flatMap (·.dockerfile)++update.dockerfile ++
      line "LABEL" (labelArgument printable metadataLabel (encode metadata))++labelLines.flatten
    files := layers.flatMap (·.files)++update.files }

end

end Cdenv.GeneratedImage
