import Cdenv.Fallible
import Cdenv.FeatureReach

/-!
# What a successful resolution guarantees

The queue leaves nodes with every hard edge drawn. Soft edges and priorities are updates of each
node by itself, so the edges the rounds start with are the declared ones. The rounds then schedule
these edges, and the override priorities can reorder a round but never move a Feature before an
edge.
-/
namespace Cdenv.FeatureResolution
open DependencyOrder Fallible List OrderedMap

/-- The package resolved for `a` depends on `b`, or asks to be installed after it. -/
def Declares (urls : UrlCrate) (packages : FeatureCatalog) (nodes : Nodes)
    (a b : FeatureInstallIdentity) : Prop :=
  ∃ node, nodes.get? a = some node ∧
    ((∃ d ∈ node.package.metadata.dependsOn.keys, ∃ package,
        packages.get? d = some package ∧ package.identity = b) ∨
      ∃ hint ∈ node.package.metadata.installsAfter, ∃ other, nodes.get? b = some other ∧
        hintMatches urls hint other.package.reference = true ∧ b ≠ a)

def overridePriority (count : ℕ) (entries : List (Text × ℕ)) (node : Node) : ℕ :=
  entries.foldl
    (fun priority entry => if overrideMatches entry.1 node then count - entry.2 else priority)
    node.priority

/-- An override entry is well formed and means a resolved Feature. -/
def isOverride (nodes : Nodes) (value : Text) : Bool :=
  !(value.contains '@' || (TextScan.afterLast '/' value).contains ':') &&
    nodes.values.any (overrideMatches value)

theorem mapValues_mapValues (nodes : Nodes) (f g : FeatureInstallIdentity → Node → Node) :
    (nodes.mapValues f).mapValues g = nodes.mapValues fun id n => g id (f id n) := by
  simp [mapValues,Function.comp_def]

variable {nodes : Nodes}
variable {ns' : Nodes} {ovs : List Text}

theorem applyOverride_eq_ok {k : ℕ} {e : Text × ℕ} : applyOverride k nodes e = .ok ns' ↔
      isOverride nodes e.1 = true ∧ ns' = nodes.mapValues fun _ n =>
        { n with priority := overridePriority k [e] n } := by
  have hm : (nodes.mapValues fun _ n =>
      if overrideMatches e.1 n then { n with priority := k - e.2 } else n) =
      nodes.mapValues fun _ n => { n with priority := overridePriority k [e] n } := by
    congr 1
    funext _ n
    simp only [overridePriority,foldl_cons,foldl_nil]
    split_ifs <;> rfl
  unfold applyOverride isOverride
  rw [hm]
  cases hf : (e.1.contains '@' || (TextScan.afterLast '/' e.1).contains ':') with
  | true => simp
  | false =>
    cases ha : nodes.values.any (overrideMatches e.1) with
    | false => simp
    | true => simp [eq_comm]

/-- Priorities do not change what an override means. -/
theorem isOverride_mapValues (nodes : Nodes) (p : Node → ℕ) (value : Text) :
    isOverride (nodes.mapValues fun _ n => { n with priority := p n }) value =
      isOverride nodes value := by
  unfold isOverride values mapValues
  rw [map_map,any_map,any_map]
  rfl

theorem foldlM_applyOverride_eq_ok {k : ℕ} {es : List (Text × ℕ)} :
    es.foldlM (applyOverride k) nodes = .ok ns' ↔
      (∀ e ∈ es, isOverride nodes e.1 = true) ∧ ns' = nodes.mapValues fun _ n =>
          { n with priority := overridePriority k es n } := by
  induction es generalizing nodes with
  | nil =>
    have hs : (nodes.mapValues fun _ n =>
        { n with priority := overridePriority k [] n }) = nodes := by
      simp [mapValues,overridePriority]
    rw [foldlM_nil,pure_eq_ok,hs,eq_comm]
    simp
  | cons e es ih =>
    rw [foldlM_cons,bind_eq_ok]
    simp only [applyOverride_eq_ok,ih,forall_mem_cons]
    constructor
    · rintro ⟨_,⟨he,rfl⟩,hr,rfl⟩
      simp only [isOverride_mapValues] at hr
      refine ⟨⟨he,hr⟩,?_⟩
      rw [mapValues_mapValues]
      rfl
    · rintro ⟨⟨he,hr⟩,rfl⟩
      refine ⟨_,⟨he,rfl⟩,?_,?_⟩
      · simpa only [isOverride_mapValues] using hr
      · rw [mapValues_mapValues]
        rfl

theorem applyPriorities_eq_ok : applyPriorities nodes ovs = .ok ns' ↔
      (∀ v ∈ ovs, isOverride nodes v = true) ∧ ns' = nodes.mapValues fun _ n =>
          { n with priority := overridePriority ovs.length ovs.zipIdx n } := by
  unfold applyPriorities
  rw [foldlM_applyOverride_eq_ok]
  refine and_congr_left fun _ => ?_
  constructor
  · intro h v hv
    obtain ⟨i,hi⟩ := mem_iff_getElem?.mp hv
    exact h (v, i) (mem_zipIdx_iff_getElem?.mpr hi)
  · intro h e he
    exact h e.1 (fst_mem_of_mem_zipIdx he)

/-- The drawn edges of a node set, as a relation between identities. -/
def Edge (nodes : Nodes) (b a : FeatureInstallIdentity) : Prop :=
  ∃ node, nodes.get? b = some node ∧ a ∈ node.dependencies.keys

section
variable {urls : UrlCrate} {pkgs : FeatureCatalog} {reqs : List FeatureRequest}
  {ovs : List Text} {nodes res : Nodes}

theorem mem_softEdges {n : Node} {id : FeatureInstallIdentity} :
    id ∈ softEdges urls nodes n ↔ ∃ hint ∈ n.package.metadata.installsAfter,
      ∃ b, nodes.get? id = some b ∧
        hintMatches urls hint b.package.reference = true ∧ id ≠ n.package.identity := by
  simp only [softEdges,mem_flatMap,mem_map,mem_filter,Prod.exists,
    mem_entries,Bool.and_eq_true,decide_eq_true_eq,exists_and_right,exists_eq_right]

/-- The nodes that the rounds start with. -/
theorem resolved_eq (h : applyPriorities (applySoftEdges urls nodes) ovs = .ok res) :
    res = nodes.mapValues fun _ n =>
      { n with
        dependencies := n.dependencies.extend (softEdges urls nodes n)
        priority := overridePriority ovs.length ovs.zipIdx n } := by
  obtain ⟨-,rfl⟩ := applyPriorities_eq_ok.mp h
  rw [applySoftEdges,mapValues_mapValues]
  rfl

theorem edge_eq_declares (hno : Described pkgs reqs nodes)
    (h : applyPriorities (applySoftEdges urls nodes) ovs = .ok res) :
    Edge res = Declares urls pkgs nodes := by
  funext a b
  have he : Edge res a b ↔ ∃ n, nodes.get? a = some n ∧
      b ∈ (n.dependencies.extend (softEdges urls nodes n)).keys := by
    simp [Edge,resolved_eq h,Option.map_eq_some_iff]
  refine propext (he.trans (exists_congr fun n => and_congr_right fun hn => ?_))
  rw [OrderedSet.mem_extend,mem_softEdges,hno.mem_dependencies hn,
    (hno.stands a n hn).identity,or_comm]

theorem edge_mem (hn : Described pkgs reqs nodes)
    (h : applyPriorities (applySoftEdges urls nodes) ovs = .ok res)
    {a b : FeatureInstallIdentity} (he : Edge res a b) : b ∈ res.keys := by
  rw [resolved_eq h,keys_mapValues]
  rw [edge_eq_declares hn h] at he
  obtain ⟨n,hno,hde⟩ := he
  rcases hde with ⟨d,hd,pkg,hp,rfl⟩ | ⟨_,-,ot,hot,-,-⟩
  · obtain ⟨o,ho⟩ := mem_keys.mp hd
    obtain ⟨pkg',ch,ha,hc⟩ := (hn.owed a n hno d o ho).1
    obtain rfl := Option.some.inj (hp.symm.trans ha.found)
    exact mem_keys.mpr ⟨ch,hc⟩
  · exact mem_keys.mpr ⟨ot,hot⟩

end

def identities (features : List ResolvedFeature) : List FeatureInstallIdentity :=
  features.map fun feature => feature.identity

structure RoundInv (nodes : Nodes) (s : Rounds) : Prop where
  remaining : ∀ id node, s.nodes.get? id = some node → nodes.get? id = some node
  installed : ∀ id, id ∈ s.installed.keys ↔ id ∈ identities s.output
  cover : ∀ id ∈ nodes.keys, id ∈ identities s.output ∨ id ∈ s.nodes.keys
  fresh : ∀ id ∈ identities s.output, id ∉ s.nodes.keys
  nodup : (identities s.output).Nodup
  scheduled : Scheduled (Edge nodes) (identities s.output)
  faithful : ∀ feature ∈ s.output, ∃ node, nodes.get? feature.identity = some node ∧
    feature = node.resolved feature.identity

section

variable (bt : List (FeatureInstallIdentity × Node))
include bt

theorem output_foldl_install (s : Rounds) :
    (bt.foldl install s).output = s.output++bt.map fun e => e.2.resolved e.1 := by
  induction bt generalizing s with
  | nil => simp
  | cons e xs ih => simp [ih,install]

theorem installed_foldl_install (s : Rounds) (id : FeatureInstallIdentity) :
    id ∈ (bt.foldl install s).installed.keys ↔ id ∈ bt.map Prod.fst ∨ id ∈ s.installed.keys := by
  induction bt generalizing s with
  | nil => simp
  | cons e xs ih =>
    rw [foldl_cons,ih,install,OrderedSet.mem_insertKey,map_cons,mem_cons]
    tauto

theorem nodes_foldl_install (s : Rounds) (id : FeatureInstallIdentity) :
    (bt.foldl install s).nodes.get? id =
      if id ∈ bt.map Prod.fst then none else s.nodes.get? id := by
  induction bt generalizing s with
  | nil => simp
  | cons e xs ih =>
    rw [foldl_cons,ih,install,get?_erase]
    simp only [map_cons,mem_cons]
    by_cases h : e.1 = id
    · simp [h]
    · have h' : ¬ id = e.1 := fun he => h he.symm
      simp only [h,h',false_or,if_false]

theorem identities_foldl_install (s : Rounds) :
    identities (bt.foldl install s).output = identities s.output++bt.map Prod.fst := by
  simp [output_foldl_install,identities,Node.resolved]

end

theorem roundOrder_nodup (s : Rounds) : ((roundOrder (readyEntries s)).map Prod.fst).Nodup := by
  refine ((roundOrder_perm _).map _).nodup_iff.mpr ?_
  exact s.nodes.keys_nodup.sublist ((filter_sublist.trans filter_sublist).map _)

/-- One round installs a batch whose edges were all installed before it. -/
theorem roundStep_inv {s t : Rounds} (hs : RoundInv nodes s) (h : roundStep s = .inl t)
    : RoundInv nodes t := by
  obtain ⟨-,rfl⟩ := roundStep_cases h
  have hr : ∀ id ∈ (roundOrder (readyEntries s)).map Prod.fst,
      ∃ n, (id, n) ∈ roundOrder (readyEntries s) := by
    intro id hid
    obtain ⟨e,he,rfl⟩ := mem_map.mp hid
    exact ⟨e.2,he⟩
  have hi := identities_foldl_install (roundOrder (readyEntries s)) s
  refine ⟨?_,?_,?_,?_,?_,?_,?_⟩
  · intro id n hn
    rw [nodes_foldl_install] at hn
    split_ifs at hn
    exact hs.remaining id n hn
  · intro id
    rw [installed_foldl_install,hi,mem_append,hs.installed]
    tauto
  · intro id hid
    rw [hi,mem_append]
    by_cases hb : id ∈ (roundOrder (readyEntries s)).map Prod.fst
    · exact .inl (.inr hb)
    · rcases hs.cover id hid with ho | hn
      · exact .inl (.inl ho)
      · refine .inr (mem_keys.mpr ?_)
        simpa only [nodes_foldl_install,hb,if_false] using mem_keys.mp hn
  · intro id hid hn
    obtain ⟨n,hno⟩ := mem_keys.mp hn
    rw [nodes_foldl_install] at hno
    split_ifs at hno with hb
    rw [hi,mem_append] at hid
    exact hs.fresh id (hid.resolve_right hb) (mem_keys.mpr ⟨n,hno⟩)
  · rw [hi]
    refine List.Nodup.append hs.nodup (roundOrder_nodup s) ?_
    intro id ho hb
    obtain ⟨n,he⟩ := hr id hb
    exact hs.fresh id ho (mem_keys.mpr ⟨n,(mem_roundOrder he).1⟩)
  · rw [hi]
    refine hs.scheduled.append ?_
    rintro b hb a ⟨n,hno,ha⟩
    obtain ⟨n',he⟩ := hr b hb
    obtain ⟨hn,hsu⟩ := mem_roundOrder he
    obtain rfl := Option.some.inj ((hs.remaining b n' hn).symm.trans hno)
    exact (hs.installed a).mp (OrderedSet.isSubset_iff.mp hsu a ha)
  · intro ft hf
    rw [output_foldl_install] at hf
    rcases mem_append.mp hf with hf | hf
    · exact hs.faithful ft hf
    · obtain ⟨e,he,rfl⟩ := mem_map.mp hf
      exact ⟨e.2,hs.remaining _ _ (mem_roundOrder he).1,rfl⟩

theorem roundInv_start (nodes : Nodes) : RoundInv nodes ⟨nodes,.empty,[]⟩ := by
  refine ⟨fun _ _ h => h,?_,fun id h => .inr h,?_,nodup_nil,scheduled_nil _,?_⟩
  all_goals simp [identities,OrderedMap.mem_keys]

structure Sorted (nodes : Nodes) (features : List ResolvedFeature) : Prop where
  nodup : (identities features).Nodup
  complete : ∀ id ∈ nodes.keys, id ∈ identities features
  scheduled : Scheduled (Edge nodes) (identities features)
  faithful : ∀ feature ∈ features, ∃ node, nodes.get? feature.identity = some node ∧
    feature = node.resolved feature.identity

theorem roundSort_sorted {r : ResolvedFeatures} (h : roundSort nodes = .ok r) :
    Sorted nodes r.installationOrder := by
  have hr := rounds.run_invariant (I := RoundInv nodes)
    (Q := fun q => ∀ r, q = .ok r → Sorted nodes r.installationOrder)
    (fun s t hs ht => roundStep_inv hs ht) ?_ (roundInv_start nodes)
  · exact hr r h
  · intro s q hs hq r hok
    change roundStep s = .inr q at hq
    unfold roundStep at hq
    split_ifs at hq with h₁ h₂
    · obtain rfl := Except.ok.inj ((Sum.inr.inj hq).trans hok)
      refine ⟨hs.nodup,?_,hs.scheduled,hs.faithful⟩
      intro id hid
      refine (hs.cover id hid).resolve_right ?_
      simp [OrderedMap.keys,isEmpty_iff.mp h₁]
    · exact absurd ((Sum.inr.inj hq).trans hok) (by simp)

theorem resolveFeatures_eq_ok {urls : UrlCrate} {reqs : List FeatureRequest}
    {pkgs : FeatureCatalog} {plan : ResolvedFeatures} :
    resolveFeatures urls reqs pkgs ovs = .ok plan ↔
      ∃ nodes, (expansion pkgs).run ⟨rootRequests reqs,.empty⟩ = .ok nodes ∧
        ∃ res, applyPriorities (applySoftEdges urls nodes) ovs = .ok res ∧
          roundSort res = .ok plan := by
  unfold resolveFeatures
  rw [bind_eq_ok]
  simp only [bind_eq_ok]

/-- A plan of described nodes: each once, after what its package declares. -/
structure Planned (urls : UrlCrate) (packages : FeatureCatalog) (requests : List FeatureRequest)
    (nodes : Nodes) (features : List ResolvedFeature) : Prop where
  described : Described packages requests nodes
  nodup : (identities features).Nodup
  complete : ∀ id ∈ nodes.keys, id ∈ identities features
  scheduled : Scheduled (Declares urls packages nodes) (identities features)
  faithful : ∀ f ∈ features, ∃ node, nodes.get? f.identity = some node ∧
    f.reference = node.package.reference ∧ f.metadata = node.package.metadata

section
variable {urls : UrlCrate} {pkgs : FeatureCatalog} {reqs : List FeatureRequest}
  {ovs : List Text} {plan : ResolvedFeatures}

theorem resolveFeatures_planned (h : resolveFeatures urls reqs pkgs ovs = .ok plan) :
    ∃ nodes, (expansion pkgs).run ⟨rootRequests reqs,.empty⟩ = .ok nodes ∧
      Planned urls pkgs reqs nodes plan.installationOrder := by
  obtain ⟨nodes,he,res,hr,hso⟩ := resolveFeatures_eq_ok.mp h
  have hd := expansion_described he
  have hs := roundSort_sorted hso
  have hno := resolved_eq hr
  refine ⟨nodes,he,hd,hs.nodup,?_,edge_eq_declares hd hr ▸ hs.scheduled,?_⟩
  · intro id hid
    apply hs.complete
    rwa [hno,keys_mapValues]
  · intro f hf
    obtain ⟨_,hn,hfe⟩ := hs.faithful f hf
    rw [hno,get?_mapValues] at hn
    obtain ⟨n,hb,rfl⟩ := Option.map_eq_some_iff.mp hn
    exact ⟨n,hb,congrArg ResolvedFeature.reference hfe,congrArg ResolvedFeature.metadata hfe⟩

/-- The references of a plan are reached, and the catalog has its Features for them. -/
theorem Planned.reached {fts : List ResolvedFeature}
    (hp : Planned urls pkgs reqs nodes fts) {f : ResolvedFeature}
    (hf : f ∈ fts) :
    (∃ o, Reached pkgs reqs f.reference o) ∧
      ∃ pkg, pkgs.get? f.reference = some pkg ∧ pkg.identity = f.identity ∧
        pkg.metadata = f.metadata := by
  obtain ⟨n,hn,hre,hm⟩ := hp.faithful f hf
  have hs := hp.described.stands f.identity n hn
  obtain ⟨o,hr,ha,-⟩ := hs.request
  rw [hre]
  exact ⟨⟨o,hr⟩,n.package,ha.found,hs.identity,hm.symm⟩

end

/-- Each identity is installed once, each installed Feature is the catalog's, the
roots and every `dependsOn` target are installed, and both kinds of edges point
strictly backwards in the order, for every override list. -/
theorem resolveFeatures_order (urls : UrlCrate) (requests : List FeatureRequest)
    (packages : FeatureCatalog) (overrides : List Text) (r : ResolvedFeatures)
    (h : resolveFeatures urls requests packages overrides = .ok r) :
    (identities r.installationOrder).Nodup ∧
    (∀ f ∈ r.installationOrder, ∃ package, packages.get? f.reference = some package ∧
      package.identity = f.identity ∧ package.metadata = f.metadata) ∧
    (∀ q ∈ requests, ∃ package, packages.get? q.reference = some package ∧
      package.identity ∈ identities r.installationOrder) ∧
    (∀ f ∈ r.installationOrder, ∀ d ∈ f.metadata.dependsOn.keys,
      ∃ package, packages.get? d = some package ∧
        package.identity ∈ identities r.installationOrder ∧
        Before (identities r.installationOrder) package.identity f.identity) ∧
    (∀ f ∈ r.installationOrder, ∀ hint ∈ f.metadata.installsAfter,
      ∀ g ∈ r.installationOrder, g.identity ≠ f.identity →
        hintMatches urls hint g.reference = true →
        Before (identities r.installationOrder) g.identity f.identity) := by
  obtain ⟨nodes,-,hpl⟩ := resolveFeatures_planned h
  have hme : ∀ f ∈ r.installationOrder, f.identity ∈ identities r.installationOrder :=
    fun f hf => mem_map.mpr ⟨f,hf,rfl⟩
  have hpr : ∀ d o, Processed packages nodes d o → ∃ package,
      packages.get? d = some package ∧ package.identity ∈ identities r.installationOrder := by
    rintro d o ⟨package,n,ha,hn⟩
    exact ⟨package,ha.found,hpl.complete _ (mem_keys.mpr ⟨n,hn⟩)⟩
  refine ⟨hpl.nodup,fun f hf => (hpl.reached hf).2,
    fun q hq => hpr _ _ (hpl.described.roots q hq),?_,?_⟩
  · intro f hf d hd
    obtain ⟨n,hn,-,hm⟩ := hpl.faithful f hf
    rw [hm] at hd
    obtain ⟨o,ho⟩ := mem_keys.mp hd
    obtain ⟨package,hp,hi⟩ := hpr d o (hpl.described.owed _ n hn d o ho).1
    exact ⟨package,hp,hi,hpl.scheduled.before (hme f hf) ⟨n,hn,.inl ⟨d,hd,package,hp,rfl⟩⟩⟩
  · intro f hf hint hh g hg hne hma
    obtain ⟨n,hn,-,hm⟩ := hpl.faithful f hf
    obtain ⟨b,hot,hr,-⟩ := hpl.faithful g hg
    exact hpl.scheduled.before (hme f hf) ⟨n,hn,.inr ⟨hint,hm ▸ hh,b,hot,hr ▸ hma,hne⟩⟩

def noUrls : UrlCrate where
  Url := Unit
  parse := fun _ => .error "relative URL without a base"
  username := fun _ => []
  password := fun _ => none
  hostStr := fun _ => none
  fragment := fun _ => none
  setHost := fun _ _ => none
  toText := fun _ => []

def localPackage (path : String) (dependsOn : List FeatureReference)
    (installsAfter : List Text) : FeaturePackage where
  reference := .localPath path.toList
  identity := .localPath path.toList
  metadata :=
    { id := path.toList.drop 2, version := ['1'],
      dependsOn := .ofList (dependsOn.map fun d => (d, .empty)), installsAfter := installsAfter }

/-- A root with a hard dependency, a root hinting at it, and an override for the
dependent Feature. -/
def sampleCatalog : FeatureCatalog :=
  .ofList ([localPackage "./a" [] [],localPackage "./b" [.localPath "./a"] [],
    localPackage "./c" [] ["./B","./b"]].map fun p => (p.reference, p))

def sampleRequests : List FeatureRequest :=
  [⟨.localPath "./c",.empty⟩,⟨.localPath "./b",.empty⟩]

theorem resolveFeatures_order_sample :
    ∃ r, resolveFeatures noUrls sampleRequests sampleCatalog ["./b"] = .ok r ∧
      identities r.installationOrder = [.localPath "./a",.localPath "./b",.localPath "./c"] ∧
      (∀ q ∈ sampleRequests, ∃ package, sampleCatalog.get? q.reference = some package ∧
        package.identity ∈ identities r.installationOrder) ∧
      ∀ f ∈ r.installationOrder, ∀ hint ∈ f.metadata.installsAfter,
        ∀ g ∈ r.installationOrder, g.identity ≠ f.identity →
          hintMatches noUrls hint g.reference = true →
          Before (identities r.installationOrder) g.identity f.identity := by
  obtain ⟨r,hok,hi⟩ := exists_ok_and
    (x := resolveFeatures noUrls sampleRequests sampleCatalog ["./b"])
    (P := fun r => identities r.installationOrder =
      [.localPath "./a",.localPath "./b",.localPath "./c"])
    (by decide +kernel) fun _ _ h => h
  have h := resolveFeatures_order noUrls sampleRequests sampleCatalog ["./b"] r hok
  exact ⟨r,hok,hi,h.2.2.1,h.2.2.2.2⟩

end Cdenv.FeatureResolution
