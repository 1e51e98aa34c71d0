import Cdenv.BoundedLoop
import Cdenv.DependencyOrder
import Cdenv.FeatureModel
import Mathlib.Algebra.Order.BigOperators.Group.List
import Mathlib.Data.List.Sort
import Mathlib.Tactic.Ring

/-!
# Dependency expansion and installation rounds

The resolver takes requests, an injected catalog and the override list. It first closes the
requests under `dependsOn` with a queue, merging requests of one install identity, then adds the
soft edges of `installsAfter` hints, then sets the override priorities, and last repeats rounds.
No step performs input or output.
-/
namespace Cdenv.FeatureResolution
open TextScan DependencyOrder List OrderedMap

structure Node where
  package : FeaturePackage
  (options explicitOptions : FeatureOptions)
  dependencies : OrderedSet FeatureInstallIdentity
  firstPath : List FeatureReference
  priority : ℕ

structure Pending where
  reference : FeatureReference
  options : FeatureOptions
  parent : Option FeatureInstallIdentity
  path : List FeatureReference

abbrev Nodes := OrderedMap FeatureInstallIdentity Node

/-- The first key, of either map, on which the two maps differ. -/
def differingOption (first second : FeatureOptions) : Text :=
  ((first.keys++second.keys).find? fun key => first.get? key ≠ second.get? key).getD
    "<options>"

def addDependency (nodes : Nodes) (parent : Option FeatureInstallIdentity)
    (child : FeatureInstallIdentity) : Nodes :=
  match parent with
  | none => nodes
  | some parent =>
    match nodes.get? parent with
    | none => nodes
    | some node =>
      nodes.insert parent { node with dependencies := node.dependencies.insertKey child }

def newNode (package : FeaturePackage) (effective : FeatureOptions) (item : Pending) : Node where
  package := package
  options := effective
  explicitOptions := item.options
  dependencies := .empty
  firstPath := item.path
  priority := 0

def dependencyRequests (package : FeaturePackage) (item : Pending) : List Pending :=
  package.metadata.dependsOn.entries.map fun entry =>
    ⟨entry.1,entry.2,some package.identity,item.path++[entry.1]⟩

/-- One queue item: the updated nodes and the requests to append. -/
def expandItem (packages : FeatureCatalog) (nodes : Nodes) (item : Pending) :
    Except FeatureError (Nodes × List Pending) :=
  match packages.get? item.reference with
  | none => .error (.missingPackage item.reference (renderPath item.path))
  | some package =>
    if package.reference ≠ item.reference then
      .error (.catalogMismatch item.reference package.reference)
    else
      match validateOptions package.metadata item.options item.path with
      | .error failure => .error failure
      | .ok effective =>
        match nodes.get? package.identity with
        | some existing =>
          if existing.options ≠ effective then
            .error (.conflictingOptions package.identity
              (differingOption existing.options effective)
              (renderPath existing.firstPath) (renderPath item.path))
          else .ok (addDependency nodes item.parent package.identity, [])
        | none =>
          .ok (addDependency (nodes.insert package.identity
              (newNode package effective item)) item.parent package.identity,
            dependencyRequests package item)

structure Expansion where
  pending : List Pending
  nodes : Nodes

def expandStep (packages : FeatureCatalog) (s : Expansion) :
    Expansion ⊕ Except FeatureError Nodes :=
  match s.pending with
  | [] => .inr (.ok s.nodes)
  | item::rest =>
    match expandItem packages s.nodes item with
    | .error failure => .inr (.error failure)
    | .ok (nodes, requests) => .inl ⟨rest++requests,nodes⟩

/-- Requests that catalog packages outside the node set may still append. -/
def openRequests (nodes : Nodes) (catalog : List (FeatureReference × FeaturePackage)) : ℕ :=
  (catalog.map fun entry =>
    if nodes.contains entry.2.identity then 0 else entry.2.metadata.dependsOn.size).sum

def expansionMeasure (packages : FeatureCatalog) (s : Expansion) : ℕ :=
  s.pending.length+openRequests s.nodes packages.entries

variable {nodes ns' : Nodes} {pkgs : FeatureCatalog}

theorem addDependency_eq (nodes : Nodes) (par : Option FeatureInstallIdentity)
    (ch : FeatureInstallIdentity) :
    addDependency nodes par ch = nodes.mapValues fun id node =>
      if par = some id then { node with dependencies := node.dependencies.insertKey ch }
      else node := by
  apply ext_get?
  intro id
  rw [get?_mapValues]
  unfold addDependency
  cases par with
  | none => simp
  | some p =>
    by_cases hp : p = id
    · subst hp
      cases h : nodes.get? p <;> simp [h,get?_insert]
    · cases h : nodes.get? p <;> simp [h,hp,get?_insert]

theorem mem_keys_addDependency {p : Option FeatureInstallIdentity} {ch k : FeatureInstallIdentity} :
    k ∈ (addDependency nodes p ch).keys ↔ k ∈ nodes.keys := by
  rw [addDependency_eq,keys_mapValues]

theorem openRequests_mono (h : ∀ k ∈ nodes.keys, k ∈ ns'.keys)
    (catalog : List (FeatureReference × FeaturePackage)) :
    openRequests ns' catalog ≤ openRequests nodes catalog := by
  apply sum_le_sum
  intro e _
  by_cases hk : e.2.identity ∈ nodes.keys
  · simp [OrderedMap.contains_iff.mpr hk,OrderedMap.contains_iff.mpr (h _ hk)]
  · simp only [OrderedMap.contains_eq_false.mpr hk,Bool.false_eq_true,if_false]
    split_ifs <;> omega

/-- A package that becomes a node stops counting, and it counted its own requests. -/
theorem openRequests_new {catalog : List (FeatureReference × FeaturePackage)}
    {e : FeatureReference × FeaturePackage} (hm : e ∈ catalog)
    (hol : e.2.identity ∉ nodes.keys) (hne : e.2.identity ∈ ns'.keys)
    (h : ∀ k ∈ nodes.keys, k ∈ ns'.keys) :
    openRequests ns' catalog+e.2.metadata.dependsOn.size ≤ openRequests nodes catalog := by
  obtain ⟨l,r,rfl⟩ := append_of_mem hm
  have hl := openRequests_mono h l
  have hr := openRequests_mono h r
  have ho := OrderedMap.contains_eq_false.mpr hol
  have hn := OrderedMap.contains_iff.mpr hne
  simp only [openRequests,map_append,map_cons,sum_append,sum_cons,ho,hn,if_true] at hl hr ⊢
  simp only [Bool.false_eq_true,if_false]
  omega

/-- Everything a successful item can do: its package is found and accepts its options, and
either its identity is merged into the existing node, or a fresh node is added and its own
requests are queued. -/
theorem expandItem_eq_ok {x : Pending} {reqs : List Pending} :
    expandItem pkgs nodes x = .ok (ns', reqs) ↔
      ∃ pkg eff, pkgs.get? x.reference = some pkg ∧ pkg.reference = x.reference ∧
        validateOptions pkg.metadata x.options x.path = .ok eff ∧
        ((∃ old, nodes.get? pkg.identity = some old ∧ old.options = eff ∧ reqs = [] ∧
            ns' = addDependency nodes x.parent pkg.identity) ∨
          (nodes.get? pkg.identity = none ∧ reqs = dependencyRequests pkg x ∧
            ns' = addDependency (nodes.insert pkg.identity
              (newNode pkg eff x)) x.parent pkg.identity)) := by
  unfold expandItem
  cases hp : pkgs.get? x.reference with
  | none => simp
  | some pkg =>
    by_cases hr : pkg.reference = x.reference
    · cases hv : validateOptions pkg.metadata x.options x.path with
      | error e => simp [hr,hv]
      | ok eff =>
        cases hn : nodes.get? pkg.identity with
        | some old =>
          by_cases ho : old.options = eff
          · simp [hr,hv,hn,ho,eq_comm,and_comm]
          · simp [hr,hv,hn,ho]
        | none => simp [hr,hv,hn,eq_comm,and_comm]
    · simp [hr]

theorem expandStep_cases {s t : Expansion} (h : expandStep pkgs s = .inl t) :
    ∃ x xs requests, s.pending = x::xs ∧ expandItem pkgs s.nodes x = .ok (t.nodes, requests) ∧
      t.pending = xs++requests := by
  unfold expandStep at h
  cases hs : s.pending with
  | nil => simp [hs] at h
  | cons x xs =>
    simp only [hs] at h
    cases hi : expandItem pkgs s.nodes x with
    | error e => simp [hi] at h
    | ok r =>
      obtain ⟨nodes,requests⟩ := r
      simp only [hi,Sum.inl.injEq] at h
      subst h
      exact ⟨x,xs,requests,rfl,hi,rfl⟩

theorem expandStep_decreases (pkgs : FeatureCatalog) {s t : Expansion}
    (h : expandStep pkgs s = .inl t) :
    expansionMeasure pkgs t < expansionMeasure pkgs s := by
  obtain ⟨x,xs,reqs,hs,hi,ht⟩ := expandStep_cases h
  obtain ⟨pkg,eff,hp,-,-,hc⟩ := expandItem_eq_ok.mp hi
  simp only [expansionMeasure,hs,ht,length_append,length_cons]
  rcases hc with ⟨-,-,-,rfl,hn⟩ | ⟨hne,rfl,hn⟩
  · have hke : ∀ k ∈ s.nodes.keys, k ∈ t.nodes.keys :=
      fun k hk => by rw [hn,mem_keys_addDependency]; exact hk
    have hm := openRequests_mono hke pkgs.entries
    simp only [length_nil]
    omega
  · have hky : pkg.identity ∈ t.nodes.keys := by
      rw [hn,mem_keys_addDependency,mem_keys_insert]
      exact .inl rfl
    have hke : ∀ k ∈ s.nodes.keys, k ∈ t.nodes.keys := by
      intro k hk
      rw [hn,mem_keys_addDependency,mem_keys_insert]
      exact .inr hk
    have hm := openRequests_new (pkgs.mem_entries.mpr hp) (by simp [OrderedMap.mem_keys,hne]) hky hke
    have hl : (dependencyRequests pkg x).length = pkg.metadata.dependsOn.size := by
      simp [dependencyRequests,OrderedMap.size]
    dsimp only at hm
    omega

def expansion (packages : FeatureCatalog) : Loop Expansion (Except FeatureError Nodes) where
  step := expandStep packages
  measure := expansionMeasure packages
  decreases := expandStep_decreases packages

def rootRequests (requests : List FeatureRequest) : List Pending :=
  requests.map fun request => ⟨request.reference,request.options,none,[request.reference]⟩

/-- The comparison name of a hint: the normalized resource name when the hint
parses, its own text otherwise, in lower case. -/
def hintName (urls : UrlCrate) (hint : Text) : Text :=
  toAsciiLowercase (match FeatureReference.parse urls hint with
    | .ok reference => reference.resourceName
    | .error _ => hint)

def hintMatches (urls : UrlCrate) (hint : Text) (reference : FeatureReference) : Bool :=
  eqIgnoreAsciiCase reference.resourceName (hintName urls hint)

def softEdges (urls : UrlCrate) (nodes : Nodes) (node : Node) : List FeatureInstallIdentity :=
  node.package.metadata.installsAfter.flatMap fun hint =>
    (nodes.entries.filter fun entry =>
      hintMatches urls hint entry.2.package.reference && entry.1 ≠ node.package.identity).map
        Prod.fst

def applySoftEdges (urls : UrlCrate) (nodes : Nodes) : Nodes :=
  nodes.mapValues fun _ node =>
    { node with dependencies := node.dependencies.extend (softEdges urls nodes node) }

def overrideMatches (value : Text) (node : Node) : Bool :=
  eqIgnoreAsciiCase node.package.reference.resourceName value

/-- One override entry; later entries may lower an earlier priority again. -/
def applyOverride (count : ℕ) (nodes : Nodes) (entry : Text × ℕ) : Except FeatureError Nodes :=
  if entry.1.contains '@' || (afterLast '/' entry.1).contains ':' then
    .error (.invalidOverride entry.1 "override must omit tags, digests, and options")
  else if !(nodes.values.any (overrideMatches entry.1)) then
    .error (.invalidOverride entry.1 "override does not match a resolved Feature")
  else
    .ok (nodes.mapValues fun _ node =>
      if overrideMatches entry.1 node then { node with priority := count - entry.2 } else node)

def applyPriorities (nodes : Nodes) (overrides : List Text) : Except FeatureError Nodes :=
  overrides.zipIdx.foldlM (applyOverride overrides.length) nodes

/-- Resource name, selector, more explicit options first, option text, identity. -/
def compareNodes (left right : Node) : Ordering :=
  (cmp left.package.reference.resourceName right.package.reference.resourceName).then <|
  (cmp left.package.reference.selector right.package.reference.selector).then <|
  (cmp right.explicitOptions.size left.explicitOptions.size).then <|
  (cmp (left.explicitOptions.entries.map toLex) (right.explicitOptions.entries.map toLex)).then
    (cmp left.package.identity right.package.identity)

/-- Depth-first search for a closed path; `visiting` is the current path. -/
def visit (nodes : Nodes) : ℕ → FeatureInstallIdentity → List FeatureInstallIdentity →
    OrderedSet FeatureInstallIdentity →
    Option (List FeatureInstallIdentity) × OrderedSet FeatureInstallIdentity
  | 0, _, _, visited => (none, visited)
  | depth+1, identity, visiting, visited =>
    if identity ∈ visiting then
      (some (visiting.dropWhile (· ≠ identity)++[identity]), visited)
    else if visited.contains identity then (none, visited)
    else
      let edges := ((nodes.get? identity).map fun node => node.dependencies.keys).getD []
      let r := (edges.filter nodes.contains).foldl
        (fun acc dependency =>
          match acc.1 with
          | some _ => acc
          | none => visit nodes depth dependency (visiting++[identity]) acc.2)
        (none, visited)
      match r.1 with
      | some cycle => (some cycle, r.2)
      | none => (none, OrderedSet.insertKey r.2 identity)

/-- The path never repeats a node, so the node count bounds its depth. -/
def findCycle (nodes : Nodes) : Option (List FeatureInstallIdentity) :=
  (nodes.keys.foldl
    (fun acc identity =>
      match acc.1 with
      | some _ => acc
      | none => visit nodes (nodes.size+1) identity [] acc.2)
    (none, OrderedMap.empty)).1

def cycleError (nodes : Nodes) : FeatureError :=
  .dependencyCycle (List.intercalate " -> "
    (((findCycle nodes).getD nodes.keys).map FeatureInstallIdentity.label))

structure Rounds where
  nodes : Nodes
  installed : OrderedSet FeatureInstallIdentity
  output : List ResolvedFeature

def Node.resolved (node : Node) (identity : FeatureInstallIdentity) : ResolvedFeature :=
  ⟨node.package.reference,identity,node.package.metadata,node.options⟩

def readyEntries (s : Rounds) : List (FeatureInstallIdentity × Node) :=
  s.nodes.entries.filter fun entry => entry.2.dependencies.isSubset s.installed

def maxPriority (ready : List (FeatureInstallIdentity × Node)) : ℕ :=
  (ready.map fun entry => entry.2.priority).foldr max 0

/-- The kept candidates of one round, in installation order. -/
def roundOrder (ready : List (FeatureInstallIdentity × Node)) :
    List (FeatureInstallIdentity × Node) :=
  (ready.filter fun entry => entry.2.priority = maxPriority ready).insertionSort
    fun left right => compareNodes left.2 right.2 ≠ .gt

def install (s : Rounds) (entry : FeatureInstallIdentity × Node) : Rounds where
  nodes := s.nodes.erase entry.1
  installed := s.installed.insertKey entry.1
  output := s.output++[entry.2.resolved entry.1]

/-- All Features whose edges are installed are ready; those of the highest priority are installed
in comparison order. -/
def roundStep (s : Rounds) : Rounds ⊕ Except FeatureError ResolvedFeatures :=
  if s.nodes.entries.isEmpty then .inr (.ok ⟨s.output⟩)
  else if (readyEntries s).isEmpty then .inr (.error (cycleError s.nodes))
  else .inl ((roundOrder (readyEntries s)).foldl install s)

theorem roundOrder_perm (rdy : List (FeatureInstallIdentity × Node)) : (roundOrder rdy).Perm
      (rdy.filter fun e => e.2.priority = maxPriority rdy) :=
  perm_insertionSort _ _

theorem maxPriority_attained {ready : List (FeatureInstallIdentity × Node)} (h : ready ≠ []) :
    ∃ e ∈ ready, e.2.priority = maxPriority ready := by
  induction ready with
  | nil => exact absurd rfl h
  | cons e xs ih =>
    simp only [maxPriority,map_cons,foldr_cons] at ih ⊢
    by_cases hr : xs = []
    · subst hr
      exact ⟨e,mem_cons_self,by simp⟩
    · obtain ⟨best,hb,hp⟩ := ih hr
      rcases le_total e.2.priority best.2.priority with hle | hle
      · exact ⟨best,mem_cons_of_mem _ hb,by rw [← hp,max_eq_right hle]⟩
      · exact ⟨e,mem_cons_self,by rw [← hp,max_eq_left hle]⟩

theorem mem_roundOrder {s : Rounds} {e : FeatureInstallIdentity × Node}
    (h : e ∈ roundOrder (readyEntries s)) :
    s.nodes.get? e.1 = some e.2 ∧ e.2.dependencies.isSubset s.installed = true := by
  have h₁ := mem_of_mem_filter ((roundOrder_perm _).mem_iff.mp h)
  obtain ⟨h₂,h₃⟩ := mem_filter.mp h₁
  exact ⟨s.nodes.mem_entries.mp h₂,h₃⟩

theorem roundOrder_ne_nil {s : Rounds} (h : readyEntries s ≠ []) :
    roundOrder (readyEntries s) ≠ [] := by
  obtain ⟨e,hm,hp⟩ := maxPriority_attained h
  intro hn
  have hf := (roundOrder_perm _).mem_iff.mpr (mem_filter.mpr ⟨hm,by simpa using hp⟩)
  rw [hn] at hf
  exact not_mem_nil hf

theorem size_foldl_install (bt : List (FeatureInstallIdentity × Node)) (s : Rounds) :
    (bt.foldl install s).nodes.size ≤ s.nodes.size := by
  induction bt generalizing s with
  | nil => exact le_rfl
  | cons e xs ih => exact (ih _).trans (size_erase_le _ _)

theorem roundStep_cases {s t : Rounds} (h : roundStep s = .inl t) :
    readyEntries s ≠ [] ∧ t = (roundOrder (readyEntries s)).foldl install s := by
  unfold roundStep at h
  split_ifs at h with h₁ h₂
  exact ⟨by simpa using h₂,(Sum.inl.inj h).symm⟩

theorem roundStep_decreases {s t : Rounds} (h : roundStep s = .inl t) :
    t.nodes.size < s.nodes.size := by
  obtain ⟨hr,rfl⟩ := roundStep_cases h
  obtain ⟨e,xs,hc⟩ := exists_cons_of_ne_nil (roundOrder_ne_nil hr)
  have hm := (mem_roundOrder (s := s) (hc ▸ mem_cons_self)).1
  rw [hc]
  exact (size_foldl_install xs _).trans_lt (size_erase_lt (mem_keys.mpr ⟨_,hm⟩))

def rounds : Loop Rounds (Except FeatureError ResolvedFeatures) where
  step := roundStep
  measure := fun s => s.nodes.size
  decreases := roundStep_decreases

def roundSort (nodes : Nodes) : Except FeatureError ResolvedFeatures :=
  rounds.run ⟨nodes,.empty,[]⟩

def resolveFeatures (urls : UrlCrate) (requests : List FeatureRequest)
    (packages : FeatureCatalog) (overrideFeatureInstallOrder : List Text) :
    Except FeatureError ResolvedFeatures := do
  let nodes ← (expansion packages).run ⟨rootRequests requests,.empty⟩
  let nodes ← applyPriorities (applySoftEdges urls nodes) overrideFeatureInstallOrder
  roundSort nodes

end Cdenv.FeatureResolution
