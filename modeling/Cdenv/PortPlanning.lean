import Cdenv.Fallible
import Cdenv.IpAddress
import Cdenv.Profile

/-!
# Publication and forward planning

Planning binds nothing. JSON quoting of an attribute key, which appears in property paths only, is
the outside serializer's and enters as the parameter `jsonString`.
-/
namespace Cdenv.PortPlanning
open TextScan Fallible

@[ext] structure PortNumber where
  value : ℕ
  positive : 0 < value
  bounded : value < 65536

instance : DecidableEq PortNumber :=
  fun ⟨a,_,_⟩ ⟨b,_,_⟩ => decidable_of_iff (a = b) (by simp)

def PortNumber.sample : PortNumber := ⟨3000,by decide,by decide⟩

def PortNumber.new (value : ℕ) : Option PortNumber :=
  if h : 0 < value ∧ value < 65536 then some ⟨value,h.1,h.2⟩ else none

/-- An inclusive range; the planner builds none that is reversed. -/
structure PortRange where
  (first last : PortNumber)
deriving DecidableEq

def PortRange.overlaps (a b : PortRange) : Bool :=
  a.first.value ≤ b.last.value && b.first.value ≤ a.last.value

def PortRange.width (r : PortRange) : ℕ := r.last.value - r.first.value

inductive PublicationProtocol where
  | tcp | udp | sctp
deriving DecidableEq

inductive PublicationBinding where
  | loopback (address : IpAddr)
  | nonLoopback (address : IpAddr)
  | allInterfaces
deriving DecidableEq

def PublicationBinding.mayExposeNonLoopback : PublicationBinding → Bool
  | .loopback _ => false
  | _ => true

def PublicationBinding.addressFamily : PublicationBinding → Option Bool
  | .loopback address | .nonLoopback address => some address.isIpv6
  | .allInterfaces => none

/-- A create-time request with its exact argument text. -/
structure PublicationRequest where
  argument : Text
  binding : PublicationBinding
  hostPorts : Option PortRange
  containerPorts : PortRange
  protocol : PublicationProtocol
deriving DecidableEq

inductive ForwardTargetHost where
  | containerLoopback
  | composeService (service : Text)
deriving DecidableEq

structure EffectivePortAttributes where
  onAutoForward : AutoForwardAction := .notify
  elevateIfNeeded : Bool := false
  label : Option Text := none
  requireLocalPort : Bool := false
  protocol : Option PortProtocol := none
deriving DecidableEq

def EffectivePortAttributes.ofAttributes (a : PortAttributes) : EffectivePortAttributes where
  onAutoForward := a.onAutoForward.getD .notify
  elevateIfNeeded := a.elevateIfNeeded.getD false
  label := a.label
  requireLocalPort := a.requireLocalPort.getD false
  protocol := a.protocol

/-- A runtime request with effective attributes. -/
structure ForwardRequest where
  requestedLocal : PortNumber
  assignedLocal : Option PortNumber
  targetHost : ForwardTargetHost
  targetPort : PortNumber
  attributes : EffectivePortAttributes
deriving DecidableEq

inductive PortPlanningWarningKind where
  | nonLoopbackPublication | deferredDiscovery | explicitForwardOverridesIgnore
  | browserLaunchSuppressed | embeddedPreviewUnsupported
deriving DecidableEq

structure PortPlanningWarning where
  propertyPath : Text
  kind : PortPlanningWarningKind
deriving DecidableEq

structure PortPlan where
  publications : List PublicationRequest := []
  forwards : List ForwardRequest := []
  warnings : List PortPlanningWarning := []
deriving DecidableEq

inductive PortPlanningErrorKind where
  | invalidPort | invalidPublication | publicationConflict | forwardConflict
  | serviceTargetOutsideCompose
deriving DecidableEq

structure PortPlanningError where
  propertyPath : Text
  kind : PortPlanningErrorKind
  message : Text
deriving DecidableEq

def failure (propertyPath : Text) (kind : PortPlanningErrorKind) (message : String) :
    PortPlanningError :=
  ⟨propertyPath,kind,message.toList⟩

def invalidPublication (property : Text) : PortPlanningError :=
  failure property .invalidPublication
    "invalid Docker publication; use [host-address:]host-port:container-port[/protocol]"

/-- `str::parse::<u16>`: an optional plus sign and decimal digits. -/
def parseU16 (s : Text) : Option ℕ :=
  let digits := (stripPrefix ['+'] s).getD s
  if digits.isEmpty || !digits.all Char.isDigit then none
  else
    let value := digits.foldl (fun n c => n*10+(c.toNat - 48)) 0
    if value < 65536 then some value else none

def parsePort (s : Text) : Option PortNumber := (parseU16 s).bind PortNumber.new

def parseRange (value : Text) : Option PortRange :=
  let (first, last) := (splitOnce '-' value).getD (value, value)
  match parsePort first, parsePort last with
  | some first, some last => if first.value ≤ last.value then some ⟨first,last⟩ else none
  | _, _ => none

def bindingOf (address : IpAddr) : PublicationBinding :=
  if address.isLoopback then .loopback address else .nonLoopback address

def splitProtocol (argument : Text) : Option (Text × PublicationProtocol) :=
  match rsplitOnce '/' argument with
  | none => some (argument, .tcp)
  | some (value, suffix) =>
    if suffix = "tcp" then some (value, .tcp)
    else if suffix = "udp" then some (value, .udp)
    else if suffix = "sctp" then some (value, .sctp)
    else none

def splitBracket : Text → Option (Text × Text)
  | [] => none
  | c::s =>
    match stripPrefix "]:" (c::s) with
    | some rest => some ([], rest)
    | none => (splitBracket s).map fun p => (c::p.1, p.2)

/-- Address, host ports and container ports. -/
def splitEndpoint (value : Text) : Option (PublicationBinding × Text × Text) :=
  match stripPrefix ['['] value with
  | some rest => do
    let (address, ports) ← splitBracket rest
    let address ← IpAddr.parse address
    if address.isIpv6 then
      let (host, container) := (splitOnce ':' ports).getD ([], ports)
      some (bindingOf address, host, container)
    else none
  | none =>
    match value.splitOn ':' with
    | [container] => some (.allInterfaces, [], container)
    | [addressOrHost,container] =>
      match IpAddr.parse addressOrHost with
      | some address => some (bindingOf address, [], container)
      | none => some (.allInterfaces, addressOrHost, container)
    | [address,host,container] =>
      if address = [] then some (.allInterfaces, host, container)
      else (IpAddr.parse address).map fun address => (bindingOf address, host, container)
    | _ => none

/-- A `--publish` value; both ranges have one width. -/
def parsePublication (argument property : Text) : Except PortPlanningError PublicationRequest := do
  require (!argument.isEmpty && !argument.any isWhitespace) (invalidPublication property)
  let (value, protocol) ← orFail (splitProtocol argument) (invalidPublication property)
  let (binding, host, container) ← orFail (splitEndpoint value) (invalidPublication property)
  let containerPorts ← orFail (parseRange container) (invalidPublication property)
  let hostPorts ←
    if host.isEmpty then .ok none
    else (orFail (parseRange host) (invalidPublication property)).map some
  require (hostPorts.all fun ports => ports.width == containerPorts.width)
    (invalidPublication property)
  return ⟨argument,binding,hostPorts,containerPorts,protocol⟩

def numericPublication (port : ℕ) (property : Text) :
    Except PortPlanningError PublicationRequest := do
  let port ← orFail (PortNumber.new port)
    (failure property .invalidPort "publication port must be between 1 and 65535")
  let text := decimal port.value
  return {
    argument := "127.0.0.1:"++text++ ':'::text
    binding := .loopback (.v4 [127,0,0,1])
    hostPorts := some ⟨port,port⟩
    containerPorts := ⟨port,port⟩
    protocol := .tcp }

def bindingsOverlap (left right : PublicationBinding) : Bool :=
  match left.addressFamily, right.addressFamily with
  | some l, some r => l == r && left == right
  | _, _ => true

def publicationsConflict (left right : PublicationRequest) : Bool :=
  left.protocol == right.protocol &&
    match left.hostPorts, right.hostPorts with
    | some l, some r => l.overlaps r && bindingsOverlap left.binding right.binding
    | _, _ => false

def appPortPath (count index : ℕ) : Text :=
  if count = 1 then "$.appPort" else "$.appPort["++decimal index++[']']

def planPublication (port : AppPort) (property : Text) :
    Except PortPlanningError PublicationRequest :=
  match port with
  | .number port => numericPublication port property
  | .dockerArgument argument => parsePublication argument property

def planAppPort (count : ℕ) (plan : PortPlan) (entry : AppPort × ℕ) :
    Except PortPlanningError PortPlan := do
  let property := appPortPath count entry.2
  let publication ← planPublication entry.1 property
  let warnings :=
    if publication.binding.mayExposeNonLoopback then
      plan.warnings++[⟨property,.nonLoopbackPublication⟩]
    else plan.warnings
  require (!plan.publications.any fun existing => publicationsConflict existing publication)
    (failure property .publicationConflict
      "publication conflicts with an earlier fixed host binding")
  return { plan with publications := plan.publications++[publication], warnings }

inductive AttributeKeyKind where
  | exact | deferred | invalidPort

def validServiceName (value : Text) : Bool :=
  !value.isEmpty && value.all fun c => c.isLower || c.isDigit || c == '-'

def portKeyKind (port : Text) : AttributeKeyKind :=
  if (parseU16 port).any (0 < ·) then .exact else .invalidPort

def attributeKeyKind (key : Text) : AttributeKeyKind :=
  if !key.isEmpty && key.all Char.isDigit then portKeyKind key
  else
    match rsplitOnce ':' key with
    | some (service, port) =>
      if validServiceName service && port.all Char.isDigit then portKeyKind port else .deferred
    | none => .deferred

def forwardWarnings (property : Text) : AutoForwardAction → List PortPlanningWarning
  | .ignore => [⟨property,.explicitForwardOverridesIgnore⟩]
  | .openBrowser | .openBrowserOnce => [⟨property,.browserLaunchSuppressed⟩]
  | .openPreview => [⟨property,.embeddedPreviewUnsupported⟩]
  | .notify | .silent => []

def forwardTarget (compose : Bool) (property : Text) :
    ForwardPort → Except PortPlanningError (ForwardTargetHost × ℕ × Option Text)
  | .container port => .ok (.containerLoopback, port, none)
  | .service service port =>
    if compose then .ok (.composeService service, port, some (service++ ':'::decimal port))
    else
      .error (failure property .serviceTargetOutsideCompose
        "service forwarding targets require a Compose scenario")

/-- A service key is preferred to the plain port key. -/
def forwardAttributes (effective : EffectiveMetadata) (serviceKey : Option Text)
    (port : PortNumber) : EffectivePortAttributes :=
  match (serviceKey.bind effective.portsAttributes.get?).or
      (effective.portsAttributes.get? (decimal port.value)) with
  | some attributes => .ofAttributes attributes
  | none => {}

/-- A local port is forwarded once. -/
def planForward (effective : EffectiveMetadata) (compose : Bool) (plan : PortPlan)
    (entry : ForwardPort × ℕ) : Except PortPlanningError PortPlan := do
  let property := "$.forwardPorts["++decimal entry.2++[']']
  let (targetHost, port, serviceKey) ← forwardTarget compose property entry.1
  let port ← orFail (PortNumber.new port)
    (failure property .invalidPort "forward port must be between 1 and 65535")
  require (!plan.forwards.any fun existing => existing.requestedLocal == port)
    (failure property .forwardConflict "multiple forwards request the same local port")
  let attributes := forwardAttributes effective serviceKey port
  return { plan with
    forwards := plan.forwards++[⟨port,none,targetHost,port,attributes⟩]
    warnings := plan.warnings++forwardWarnings property attributes.onAutoForward }

section
variable (jsonString : Text → Text)

def planAttributeKey (plan : PortPlan) (key : Text) : Except PortPlanningError PortPlan :=
  let property := "$.portsAttributes["++jsonString key++[']']
  match attributeKeyKind key with
  | .exact => .ok plan
  | .deferred => .ok { plan with warnings := plan.warnings++[⟨property,.deferredDiscovery⟩] }
  | .invalidPort =>
    .error (failure property .invalidPort
      "port attribute key contains a port outside 1 through 65535")

def planPorts (profile : RawProfile) (effective : EffectiveMetadata) :
    Except PortPlanningError PortPlan := do
  let appPorts := profile.common.appPorts
  let plan ← appPorts.zipIdx.foldlM (planAppPort appPorts.length) {}
  let plan ← effective.portsAttributes.keys.foldlM (planAttributeKey jsonString) plan
  let plan :=
    if effective.otherPortsAttributes.isSome then
      { plan with
        warnings := plan.warnings++[⟨"$.otherPortsAttributes",.deferredDiscovery⟩] }
    else plan
  let compose :=
    match profile.scenario with
    | .compose _ => true
    | _ => false
  effective.forwardPorts.zipIdx.foldlM (planForward effective compose) plan

end

end Cdenv.PortPlanning
