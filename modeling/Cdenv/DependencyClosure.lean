import Cdenv.ComposePlanning
import Mathlib.Logic.Relation
import Mathlib.Order.Bounds.Defs

/-!
# The services a Compose project manages

The worklist starts from the requested services and the primary one and follows the
dependencies, cyclic or not. Its invariant: a managed service is needed by a requested
one, and its dependencies are managed unless it still waits to be expanded.
-/
namespace Cdenv.ComposePlanning
open TextScan Fallible List Relation

def requestedServices (scenario : ComposeScenario) (model : ComposeModel) : OrderedSet Text :=
  OrderedSet.insertKey (OrderedSet.extend .empty (scenario.runServices.getD model.keys))
    scenario.service

def DependsOn (model : ComposeModel) (service dependency : Text) : Prop :=
  ∃ definition, model.get? service = some definition ∧ dependency ∈ definition.dependencies.keys

/-- Sets of services with the requested ones and, with a service, all it depends on. -/
def Complete (model : ComposeModel) (requested : OrderedSet Text) : Set (Set Text) :=
  {services | (∀ service ∈ requested.keys, service ∈ services) ∧
    ∀ service ∈ services, ∀ dependency, DependsOn model service dependency → dependency ∈ services}

def Needed (model : ComposeModel) (requested : OrderedSet Text) (service : Text) : Prop :=
  ∃ root ∈ requested.keys, ReflTransGen (DependsOn model) root service

/-- A needed service depends on one that the model does not have. -/
def Missing (model : ComposeModel) (requested : OrderedSet Text) (service dependency : Text) :
    Prop :=
  Needed model requested service ∧ DependsOn model service dependency ∧ dependency ∉ model.keys

def Expanded (model : ComposeModel) (requested : OrderedSet Text) :
    Except ComposePlanningError (OrderedSet Text) → Prop
  | .ok managed => IsLeast (Complete model requested) {name | name ∈ managed.keys} ∧
      ∀ service dependency, ¬ Missing model requested service dependency
  | .error e => ∃ service dependency, Missing model requested service dependency ∧
      e = .missingDependency service dependency

variable {md : ComposeModel} {requested : OrderedSet Text}

theorem Needed.step {svc dependency : Text} (h : Needed md requested svc)
    (hd : DependsOn md svc dependency) : Needed md requested dependency := by
  obtain ⟨root,hr,hp⟩ := h
  exact ⟨root,hr,hp.tail hd⟩

theorem Needed.mem_of_complete {svc : Text} {services : Set Text}
    (h : Needed md requested svc) (hc : services ∈ Complete md requested) :
    svc ∈ services := by
  obtain ⟨root,hr,hp⟩ := h
  induction hp with
  | refl => exact hc.1 root hr
  | tail _ hd ih => exact hc.2 _ ih _ hd

theorem addDependency_eq (svc dep : Text) (s : Closure) : addDependency md svc s dep =
      if dep ∈ md.keys then
        if dep ∈ s.managed.keys then .ok s
        else .ok ⟨s.managed.insertKey dep,s.pending++[dep]⟩
      else .error (.missingDependency svc dep) := by
  simp only [addDependency,require,← OrderedMap.contains_iff]
  split_ifs <;> rfl

/-- Expanding a service manages its dependencies, of which the new ones wait, or meets one
that is absent. -/
theorem foldlM_addDependency (svc : Text) (deps : List Text) (s : Closure) :
    match deps.foldlM (addDependency md svc) s with
    | .ok t => (∀ name ∈ deps, name ∈ md.keys) ∧
        (∀ name, name ∈ t.managed.keys ↔ name ∈ s.managed.keys ∨ name ∈ deps) ∧
        ∀ name, name ∈ t.pending ↔ name ∈ s.pending ∨ name ∈ deps ∧ name ∉ s.managed.keys
    | .error e => ∃ name ∈ deps, name ∉ md.keys ∧ e = .missingDependency svc name := by
  induction deps generalizing s with
  | nil => simp [pure,Except.pure]
  | cons dep xs ih =>
    rw [foldlM_cons,addDependency_eq]
    split_ifs with hm hma
    · simp only [bind,Except.bind]
      grind
    · have hi : ∀ name, name ∈ (s.managed.insertKey dep).keys ↔
          name = dep ∨ name ∈ s.managed.keys := fun _ => OrderedSet.mem_insertKey
      simp only [bind,Except.bind]
      grind
    · exact ⟨dep,mem_cons_self,hm,rfl⟩

/-- A managed service is needed, and unless it still waits its dependencies are managed. -/
structure Closure.Expanding (model : ComposeModel) (requested : OrderedSet Text) (s : Closure) :
    Prop where
  roots : ∀ service ∈ requested.keys, service ∈ s.managed.keys
  needed : ∀ service ∈ s.managed.keys, Needed model requested service ∧ service ∈ model.keys
  pending : ∀ service ∈ s.pending, service ∈ s.managed.keys
  expanded : ∀ service ∈ s.managed.keys, service ∉ s.pending →
    ∀ dependency, DependsOn model service dependency →
      dependency ∈ s.managed.keys ∧ dependency ∈ model.keys

theorem Closure.Expanding.step {s : Closure} (h : s.Expanding md requested) :
    match closureStep md s with
    | .inl t => t.Expanding md requested
    | .inr result => Expanded md requested result := by
  unfold closureStep
  rcases eq_nil_or_concat s.pending with he | ⟨waiting,svc,hp⟩
  · rw [he]
    have hep := fun svc hs => h.expanded svc hs (by simp [he])
    have hc : {name | name ∈ s.managed.keys} ∈ Complete md requested :=
      ⟨h.roots,fun svc hs dep hd => (hep svc hs dep hd).1⟩
    refine ⟨⟨hc,?_⟩,?_⟩
    · intro svcs hse name hn
      exact (h.needed name hn).1.mem_of_complete hse
    · intro svc dep hmi
      have hs := hmi.1.mem_of_complete hc
      exact hmi.2.2 (hep svc hs dep hmi.2.1).2
  · have hs := h.needed svc (h.pending svc (by simp [hp]))
    obtain ⟨dfn,hde⟩ := OrderedMap.mem_keys.mp hs.2
    have hf := @foldlM_addDependency md svc dfn.dependencies.keys ⟨s.managed,waiting⟩
    simp only [hp,concat_eq_append,getLast?_concat,dropLast_concat,hde,Option.getD_some]
    cases hr : dfn.dependencies.keys.foldlM (addDependency md svc) ⟨s.managed,waiting⟩ with
    | error e =>
      rw [hr] at hf
      obtain ⟨name,hn,ha,rfl⟩ := hf
      exact ⟨svc,name,⟨hs.1,⟨dfn,hde,hn⟩,ha⟩,rfl⟩
    | ok t =>
      rw [hr] at hf
      obtain ⟨hmo,hm,hw⟩ := hf
      have hdn : ∀ name, DependsOn md svc name ↔ name ∈ dfn.dependencies.keys := by
        simp [DependsOn,hde]
      refine ⟨fun name hn => (hm name).mpr (.inl (h.roots name hn)),?_,?_,?_⟩
      · intro name hn
        rcases (hm name).mp hn with ho | hne
        · exact h.needed name ho
        · exact ⟨hs.1.step ((hdn name).mpr hne),hmo name hne⟩
      · intro name hn
        rcases (hw name).mp hn with ho | hne
        · exact (hm name).mpr (.inl (h.pending name (by simp [hp,ho])))
        · exact (hm name).mpr (.inr hne.1)
      · intro name hn hre dep hdp
        by_cases heq : name = svc
        · have hne := (hdn dep).mp (heq ▸ hdp)
          exact ⟨(hm dep).mpr (.inr hne),hmo dep hne⟩
        · have ho : name ∈ s.managed.keys ∧ name ∉ waiting := by grind
          have := h.expanded name ho.1 (by simp [hp,ho.2,heq]) dep hdp
          exact ⟨(hm dep).mpr (.inl this.1),this.2⟩

theorem expanded_dependencyClosure (h : ∀ svc ∈ requested.keys, svc ∈ md.keys) :
    Expanded md requested (dependencyClosure md requested) := by
  refine (closure md).run_invariant (I := Closure.Expanding md requested) ?_ ?_ ?_
  · intro s t hs hst
    have := hs.step
    rwa [show closureStep md s = _ from hst] at this
  · intro s r hs hst
    have := hs.step
    rwa [show closureStep md s = _ from hst] at this
  · refine ⟨fun _ => id,?_,fun _ => id,fun svc hse hn => absurd hse hn⟩
    exact fun svc hse => ⟨⟨svc,hse,.refl⟩,h svc hse⟩

/-- Planning fails exactly when a needed service depends on an absent one; otherwise the
managed services are the least complete set. -/
theorem dependencyClosure_iff (scenario : ComposeScenario) (model : ComposeModel)
    (hprimary : scenario.service ∈ model.keys)
    (hrun : ∀ service ∈ scenario.runServices.getD model.keys, service ∈ model.keys) :
    let requested := requestedServices scenario model
    ((∃ service dep, dependencyClosure model requested = .error (.missingDependency service dep)) ↔
      ∃ service dep, Missing model requested service dep) ∧
    ((¬ ∃ service dep, Missing model requested service dep) →
      ∃ mg, dependencyClosure model requested = .ok mg ∧
        IsLeast (Complete model requested) {name | name ∈ mg.keys}) := by
  intro requested
  have h : ∀ service ∈ requested.keys, service ∈ model.keys := by
    intro service hs
    rcases OrderedSet.mem_insertKey.mp hs with rfl | hs
    · exact hprimary
    · exact hrun service ((OrderedSet.mem_extend.mp hs).resolve_right not_mem_nil)
  have he := expanded_dependencyClosure h
  cases hr : dependencyClosure model requested with
  | ok mg =>
    rw [hr] at he
    exact ⟨⟨nofun,fun ⟨_,_,hm⟩ => absurd hm (he.2 _ _)⟩,fun _ => ⟨mg,rfl,he.1⟩⟩
  | error e =>
    rw [hr] at he
    obtain ⟨service,dep,hm,rfl⟩ := he
    exact ⟨⟨fun _ => ⟨_,_,hm⟩,fun _ => ⟨_,_,rfl⟩⟩,fun hn => absurd ⟨_,_,hm⟩ hn⟩

def sampleScenario : ComposeScenario := { files := [], service := "app", workspaceFolder := "/" }

def cyclicModel : ComposeModel :=
  .ofList [("app",{ dependencies := .ofList [("db",())] }),
    ("db",{ dependencies := .ofList [("app",())] })]

theorem dependencyClosure_cyclic : (∃ service dependency,
      dependencyClosure cyclicModel (requestedServices sampleScenario cyclicModel) =
        .error (.missingDependency service dependency)) ↔
      ∃ service dependency,
        Missing cyclicModel (requestedServices sampleScenario cyclicModel) service dependency :=
  (dependencyClosure_iff sampleScenario cyclicModel (by decide) (by decide)).1

end Cdenv.ComposePlanning
