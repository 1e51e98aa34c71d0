import Cdenv.PortConflicts

/-!
# Attributes of planned forwards

A key of the port attributes names a port, or a service and a port. Planning classifies a key by
the number that its digits stand for, but looks it up by the text that it renders for a forward.
So a key with leading zeros is exact and no forward finds it, and a key of a service that no key
can name is found before the exact key of the port.
-/
namespace Cdenv.PortPlanning
open TextScan Fallible List ContainerRecord

def ForwardTargetHost.service : ForwardTargetHost → Option Text
  | .containerLoopback => none
  | .composeService service => some service

def ForwardPort.target : ForwardPort → Option Text × ℕ
  | .container port => (none, port)
  | .service service port => (some service, port)

def ForwardRequest.target (forward : ForwardRequest) : Option Text × ℕ :=
  (forward.targetHost.service, forward.targetPort.value)

/-- A key that is classified as exact, with the service and the number it denotes. -/
def Denotes (key : Text) (service : Option Text) (port : ℕ) : Prop :=
  attributeKeyKind key matches .exact ∧
    match service with
    | none => key.all Char.isDigit ∧ parseU16 key = some port
    | some service => ∃ digits, rsplitOnce ':' key = some (service, digits) ∧
        parseU16 digits = some port

/-- The text under which planning looks for a key. -/
def spelling (service : Option Text) (port : ℕ) : Text :=
  match service with
  | none => decimal port
  | some service => service++ ':'::decimal port

variable (effective : EffectiveMetadata)

def Stated (service : Option Text) (port : ℕ) : Prop :=
  ∃ key ∈ effective.portsAttributes.keys, Denotes key service port

/-- The forward carries what a key states that denotes the service and its port. -/
def Carries (forward : ForwardRequest) (service : Option Text) : Prop :=
  ∃ key attributes, Denotes key service forward.targetPort.value ∧
    effective.portsAttributes.get? key = some attributes ∧
    forward.attributes = .ofAttributes attributes

section
variable (service : Option Text) (port : PortNumber)

/-- The level whose keys are to be honoured: the service if an exact key denotes it with the port,
and the port alone otherwise. -/
def Asked (level : Option Text) : Prop :=
  Stated effective level port.value ∧
    (level = service ∨ level = none ∧ ¬ Stated effective service port.value)

/-- Planning finds the rendered text of the level, and nothing before it. -/
def Finds (level : Option Text) : Prop :=
  spelling level port.value ∈ effective.portsAttributes.keys ∧
    (level = service ∨ spelling service port.value ∉ effective.portsAttributes.keys)

/-- Planning looks past the level that is asked for, and no key of that level happens to state
what is found instead. -/
def Overlooked : Prop :=
  ∃ level, Asked effective service port level ∧ ¬ Finds effective service port level ∧
    ∀ key attributes, Denotes key level port.value →
      effective.portsAttributes.get? key = some attributes →
      forwardAttributes effective (service.map fun name => spelling (some name) port.value) port ≠
        .ofAttributes attributes

end

/-- The forwards of the entries, with the attributes that are found for their targets. -/
structure Sourced (entries : List ForwardPort) (forwards : List ForwardRequest) : Prop where
  targets : forwards.map ForwardRequest.target = entries.map ForwardPort.target
  attributes : ∀ forward ∈ forwards, forward.attributes = forwardAttributes effective
    (forward.targetHost.service.map fun service =>
      spelling (some service) forward.targetPort.value) forward.targetPort

variable {effective}

theorem Sourced.planForward {done : List ForwardPort} {compose : Bool} {p next : PortPlan}
    {e : ForwardPort × ℕ} (hso : Sourced effective done p.forwards)
    (h : planForward effective compose p e = .ok next) :
    Sourced effective (done++[e.1]) next.forwards := by
  simp only [PortPlanning.planForward,bind_eq_ok,pure_eq_ok,orFail_eq_ok,require_eq_ok] at h
  obtain ⟨t,ht,pt,hp,-,-,rfl⟩ := h
  obtain ⟨entry,i⟩ := e
  have hv : t.2.1 = pt.value := by
    unfold PortNumber.new at hp
    split_ifs at hp
    cases hp
    rfl
  cases entry with
  | container n =>
    cases ht
    exact ⟨by simp [hso.targets,ForwardRequest.target,ForwardPort.target,
      ForwardTargetHost.service,← hv],forall_mem_append.mpr
        ⟨hso.attributes,forall_mem_singleton.mpr rfl⟩⟩
  | service service n =>
    unfold forwardTarget at ht
    split_ifs at ht
    cases ht
    cases hv
    exact ⟨by simp [hso.targets,ForwardRequest.target,ForwardPort.target,
      ForwardTargetHost.service],forall_mem_append.mpr
        ⟨hso.attributes,forall_mem_singleton.mpr rfl⟩⟩

end Cdenv.PortPlanning
