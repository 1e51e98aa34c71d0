import Cdenv.DockerOptions
import Cdenv.Identity
import Cdenv.MountArguments
import Cdenv.PortPlanning

/-!
# Docker argument vectors

The exact vectors handed to the Docker client, without argument zero. Passthrough
options come first and are revalidated at this boundary; what the tool owns is
appended behind them.
-/
namespace Cdenv.DockerCommand
open TextScan Fallible RuntimePlanning DockerOptions Identity PortPlanning MountArguments

inductive GpuAccessIntent where
  | none | requested

inductive DockerCliError where
  | reservedOption (error : DockerOptionError)
  | invalidOwnedValue (role value : Text)
deriving DecidableEq

structure DockerCreateRequest where
  (name image : Text)
  identity : DockerResourceIdentity
  runtime : RuntimePlan
  runArguments : List Text
  ports : PortPlan
  gpuAccess : GpuAccessIntent
  command : List Text
  cdenvOwnedTargets : List ContainerPath

structure DockerBuildRequest where
  plan : DockerfileBuildPlan
  (dockerfile context tag iidFile : Text)
  identity : DockerResourceIdentity
  noCache : Bool

def isDockerValue (value : Text) : Bool :=
  !value.isEmpty && value.head? != some '-' && !value.any isControl

def validateDockerValue (role : String) (value : Text) : Except DockerCliError Unit :=
  require (isDockerValue value) (.invalidOwnedValue role.toList value)

def eachOption (option : String) (values : List Text) : List Text :=
  values.flatMap fun value => [option.toList,value]

def assignment (entry : Text × Text) : Text := entry.1++ '='::entry.2

/-- The create options that the plan decides. -/
def ownedCreateArguments (request : DockerCreateRequest) : List Text :=
  ["--name".toList,request.name] ++
    eachOption "--label" request.identity.labels ++
    eachOption "--publish" (request.ports.publications.map (·.argument)) ++
    (match request.gpuAccess with
      | .requested => ["--gpus".toList,"all".toList]
      | .none => []) ++
    ["--mount".toList,mountArgument request.runtime.workspace.mount] ++
    eachOption "--mount" (request.runtime.mounts.map mountArgument) ++
    eachOption "--env" (request.runtime.environment.container.entries.map assignment) ++
    ["--user".toList,request.runtime.containerUser.value] ++
    ["--workdir".toList,request.runtime.workspace.folder.value] ++
    (if request.runtime.init then ["--init".toList] else []) ++
    (if request.runtime.privileged then ["--privileged".toList] else []) ++
    eachOption "--cap-add" request.runtime.capAdd ++
    eachOption "--security-opt" request.runtime.securityOpt ++
    request.image::request.command

def createArguments (request : DockerCreateRequest) : Except DockerCliError (List Text) := do
  (validateCreateOptionsAtBoundary request.runArguments request.runtime
    request.cdenvOwnedTargets).mapError .reservedOption
  validateDockerValue "container name" request.name
  validateDockerValue "image" request.image
  return "create".toList::request.runArguments++ownedCreateArguments request

def ownedBuildArguments (request : DockerBuildRequest) : List Text :=
  (if request.noCache then ["--no-cache".toList] else []) ++
    ["--file".toList,request.dockerfile] ++
    (match request.plan.target with
      | some target => ["--target".toList,target]
      | none => []) ++
    eachOption "--build-arg" (request.plan.arguments.entries.map assignment) ++
    eachOption "--cache-from" request.plan.cacheFrom ++
    eachOption "--label" request.identity.generatedImageLabels ++
    ["--tag".toList,request.tag,"--iidfile".toList,request.iidFile,request.context]

def buildArguments (request : DockerBuildRequest) : Except DockerCliError (List Text) := do
  (validateBuildOptionsAtBoundary request.plan.options).mapError .reservedOption
  validateDockerValue "image tag" request.tag
  return "build".toList::request.plan.options++ownedBuildArguments request

theorem createArguments_eq_ok {req : DockerCreateRequest} {argv : List Text}
    (h : createArguments req = .ok argv) :
    validateCreateOptionsAtBoundary req.runArguments req.runtime req.cdenvOwnedTargets = .ok () ∧
      isDockerValue req.name = true ∧ isDockerValue req.image = true ∧
      argv = "create".toList::(req.runArguments++ownedCreateArguments req) := by
  simp only [createArguments,bind_eq_ok,mapError_eq_ok,validateDockerValue,require_eq_ok,
    pure_eq_ok] at h
  obtain ⟨⟨⟩,hv,⟨⟩,hn,⟨⟩,hi,rfl⟩ := h
  exact ⟨hv,hn,hi,rfl⟩

theorem buildArguments_eq_ok {req : DockerBuildRequest} {argv : List Text}
    (h : buildArguments req = .ok argv) :
    validateBuildOptionsAtBoundary req.plan.options = .ok () ∧ isDockerValue req.tag = true ∧
      argv = "build".toList::(req.plan.options++ownedBuildArguments req) := by
  simp only [buildArguments,bind_eq_ok,mapError_eq_ok,validateDockerValue,require_eq_ok,
    pure_eq_ok] at h
  obtain ⟨⟨⟩,hv,⟨⟩,ht,rfl⟩ := h
  exact ⟨hv,ht,rfl⟩

end Cdenv.DockerCommand
