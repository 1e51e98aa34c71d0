import Cdenv.OrderedMap
import Cdenv.TextScan

/-!
# The validated configuration profile

Data only: the typed profile that validation produces and every planner reads. Field and
constructor names follow the source. Numbers of a JSON document are kept as their source text.
-/
namespace Cdenv

/-- A JSON document; object fields stay in document order. -/
inductive Json where
  | null
  | bool (value : Bool)
  | number (text : Text)
  | string (value : Text)
  | array (items : List Json)
  | object (fields : List (Text × Json))

inductive MountKind where
  | bind | volume
deriving DecidableEq

inductive RawMount where
  | string (value : Text)
  | object (kind : MountKind) (source : Option Text) (target : Text)

inductive AppPort where
  | number (port : ℕ)
  | dockerArgument (argument : Text)

inductive ForwardPort where
  | container (port : ℕ)
  | service (service : Text) (port : ℕ)

inductive ShutdownAction where
  | none | stopContainer | stopCompose

inductive UserEnvProbe where
  | none | loginShell | loginInteractiveShell | interactiveShell
deriving DecidableEq

inductive WaitFor where
  | initializeCommand | onCreate | updateContent | postCreate | postStart

inductive AutoForwardAction where
  | notify | openBrowser | openBrowserOnce | openPreview | silent | ignore
deriving DecidableEq

inductive PortProtocol where
  | http | https
deriving DecidableEq

structure PortAttributes where
  onAutoForward : Option AutoForwardAction := none
  elevateIfNeeded : Option Bool := none
  label : Option Text := none
  requireLocalPort : Option Bool := none
  protocol : Option PortProtocol := none

inductive CommandValue where
  | shell (command : Text)
  | exec (arguments : List Text)

inductive RawCommand where
  | shell (command : Text)
  | exec (arguments : List Text)
  | parallel (commands : OrderedMap Text CommandValue)

structure LifecycleCommands where
  initializeCommand : Option RawCommand := none
  onCreate : Option RawCommand := none
  updateContent : Option RawCommand := none
  postCreate : Option RawCommand := none
  postStart : Option RawCommand := none
  postAttach : Option RawCommand := none

inductive GpuRequirement where
  | required | notRequired | optional
  | detailed (cores : Option ℕ) (memory : Option Text)

structure HostRequirements where
  cpus : Option ℕ := none
  memory : Option Text := none
  storage : Option Text := none
  gpu : Option GpuRequirement := none

structure RawBuild where
  dockerfile : Text
  context : Option Text := none
  target : Option Text := none
  args : OrderedMap Text Text := .empty
  cacheFrom : List Text := []
  options : List Text := []

structure NonComposeOptions where
  workspaceFolder : Option Text := none
  workspaceMount : Option Text := none
  runArgs : List Text := []
  shutdownAction : Option ShutdownAction := none
  overrideCommand : Option Bool := none

structure ImageScenario where
  image : Text
  options : NonComposeOptions := {}

structure DockerfileScenario where
  build : RawBuild
  options : NonComposeOptions := {}

structure ComposeScenario where
  files : List Text
  service : Text
  runServices : Option (List Text) := none
  workspaceFolder : Text
  shutdownAction : Option ShutdownAction := none
  overrideCommand : Option Bool := none

inductive RawScenario where
  | image (value : ImageScenario)
  | dockerfile (value : DockerfileScenario)
  | compose (value : ComposeScenario)

inductive FeatureOptionValue where
  | boolean (value : Bool)
  | string (value : Text)

structure RawCommon where
  features : OrderedMap Text (OrderedMap Text FeatureOptionValue) := .empty
  overrideFeatureInstallOrder : List Text := []
  containerEnv : OrderedMap Text Text := .empty
  remoteEnv : OrderedMap Text (Option Text) := .empty
  containerUser : Option Text := none
  remoteUser : Option Text := none
  updateRemoteUserUid : Option Bool := none
  userEnvProbe : Option UserEnvProbe := none
  init : Option Bool := none
  privileged : Option Bool := none
  capAdd : List Text := []
  securityOpt : List Text := []
  mounts : List RawMount := []
  appPorts : List AppPort := []
  forwardPorts : List ForwardPort := []
  portsAttributes : OrderedMap Text PortAttributes := .empty
  otherPortsAttributes : Option PortAttributes := none
  lifecycle : LifecycleCommands := {}
  waitFor : Option WaitFor := none
  hostRequirements : Option HostRequirements := none
  customizations : OrderedMap Text Json := .empty

structure RawProfile where
  scenario : RawScenario
  common : RawCommon := {}

structure EffectiveLifecycle where
  initializeCommand : List RawCommand := []
  onCreate : List RawCommand := []
  updateContent : List RawCommand := []
  postCreate : List RawCommand := []
  postStart : List RawCommand := []
  postAttach : List RawCommand := []

structure EffectiveMetadata where
  init : Option Bool := none
  privileged : Option Bool := none
  capAdd : List Text := []
  securityOpt : List Text := []
  entrypoints : List Text := []
  mounts : List RawMount := []
  lifecycle : EffectiveLifecycle := {}
  containerUser : Option Text := none
  remoteUser : Option Text := none
  userEnvProbe : Option UserEnvProbe := none
  updateRemoteUserUid : Option Bool := none
  overrideCommand : Option Bool := none
  waitFor : Option WaitFor := none
  shutdownAction : Option ShutdownAction := none
  containerEnv : OrderedMap Text Text := .empty
  remoteEnv : OrderedMap Text (Option Text) := .empty
  portsAttributes : OrderedMap Text PortAttributes := .empty
  otherPortsAttributes : Option PortAttributes := none
  forwardPorts : List ForwardPort := []
  hostRequirements : Option HostRequirements := none
  customizations : List (OrderedMap Text Json) := []

end Cdenv
