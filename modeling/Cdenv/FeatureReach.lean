import Cdenv.FeatureResolution

/-!
# What the queue of requests comes to

The requests that a resolution meets are those of the roots and, for every package met, those of
its `dependsOn` entries. This says nothing of the order in which the queue brings them. The queue
succeeds exactly when each of them finds a package that accepts its options and requests of one
identity agree, and the nodes it leaves are then described by the requests alone, up to the
choice of a reference for each identity.
-/
namespace Cdenv.FeatureResolution
open Option List

/-- The options a request comes to, whatever path it is reported under. -/
def effectiveOptions (metadata : FeatureMetadata) (provided : FeatureOptions) :
    Option FeatureOptions :=
  (validateOptions metadata provided []).toOption

variable {metadata : FeatureMetadata}

theorem effectiveEntries_path {pv start r : FeatureOptions} {p q : List FeatureReference}
    {es : List (Text × FeatureOption)}
    (h : effectiveEntries metadata pv p es start = .ok r) :
    effectiveEntries metadata pv q es start = .ok r := by
  induction es generalizing start with
  | nil => exact h
  | cons e es ih =>
    unfold effectiveEntries at h ⊢
    dsimp only at h ⊢
    split_ifs at h ⊢
    exact ih h

theorem validateOptions_eq_ok {pv r : FeatureOptions} {p : List FeatureReference} :
    validateOptions metadata pv p = .ok r ↔ effectiveOptions metadata pv = some r := by
  have hp : ∀ a b : List FeatureReference, validateOptions metadata pv a = .ok r →
      validateOptions metadata pv b = .ok r := by
    intro a b h
    unfold validateOptions at h ⊢
    cases hu : pv.keys.find? fun n => !metadata.options.contains n with
    | some n => simp [hu] at h
    | none =>
      rw [hu] at h
      exact effectiveEntries_path h
  unfold effectiveOptions
  constructor
  · intro h
    rw [hp p [] h]
    rfl
  · intro h
    apply hp []
    cases hv : validateOptions metadata pv [] with
    | error e =>
      rw [hv] at h
      cases h
    | ok r' =>
      rw [hv] at h
      exact congrArg Except.ok (some.inj h)

/-- A reference and the options it is asked for with, from a root or a package on the way. -/
inductive Reached (packages : FeatureCatalog) (requests : List FeatureRequest) :
    FeatureReference → FeatureOptions → Prop
  | root {request : FeatureRequest} (h : request ∈ requests) :
      Reached packages requests request.reference request.options
  | step {r d : FeatureReference} {o options : FeatureOptions} {package : FeaturePackage}
      (h : Reached packages requests r o) (hp : packages.get? r = some package)
      (hd : package.metadata.dependsOn.get? d = some options) :
      Reached packages requests d options

/-- Reached references of one text are the same, as parsed references are. -/
def TextsDiffer (packages : FeatureCatalog) (requests : List FeatureRequest) : Prop :=
  ∀ r o r' o', Reached packages requests r o → Reached packages requests r' o' →
    r.asStr = r'.asStr → r = r'

/-- The catalog has the reference, and its package accepts the options. -/
structure Accepts (packages : FeatureCatalog) (r : FeatureReference) (o : FeatureOptions)
    (package : FeaturePackage) (effective : FeatureOptions) : Prop where
  found : packages.get? r = some package
  named : package.reference = r
  effective : effectiveOptions package.metadata o = some effective

def Processed (packages : FeatureCatalog) (nodes : Nodes) (r : FeatureReference)
    (o : FeatureOptions) : Prop :=
  ∃ package node, Accepts packages r o package node.options ∧
    nodes.get? package.identity = some node

/-- The edge of a `dependsOn` entry goes to the package that the catalog has for it. -/
def Drawn (packages : FeatureCatalog) (node : Node) (d : FeatureReference) : Prop :=
  ∃ package, packages.get? d = some package ∧ package.identity ∈ node.dependencies.keys

variable {pkgs : FeatureCatalog}

/-- A node stands for a request of its own package. -/
structure Stands (packages : FeatureCatalog) (requests : List FeatureRequest)
    (id : FeatureInstallIdentity) (node : Node) : Prop where
  identity : node.package.identity = id
  request : ∃ o, Reached packages requests node.package.reference o ∧
    Accepts packages node.package.reference o node.package node.options ∧
    node.explicitOptions = o
  priority : node.priority = 0
  edges : ∀ b ∈ node.dependencies.keys, ∃ d ∈ node.package.metadata.dependsOn.keys,
    ∃ package, packages.get? d = some package ∧ package.identity = b

structure ReachInv (packages : FeatureCatalog) (requests : List FeatureRequest)
    (s : Expansion) : Prop where
  pending : ∀ item ∈ s.pending, Reached packages requests item.reference item.options
  parents : ∀ item ∈ s.pending, ∀ id, item.parent = some id →
    ∃ node, s.nodes.get? id = some node ∧ item.reference ∈ node.package.metadata.dependsOn.keys
  nodes : ∀ id node, s.nodes.get? id = some node → Stands packages requests id node
  roots : ∀ q ∈ requests, Processed packages s.nodes q.reference q.options ∨
    ∃ item ∈ s.pending, item.reference = q.reference ∧ item.options = q.options
  owed : ∀ id node, s.nodes.get? id = some node → ∀ d o,
    node.package.metadata.dependsOn.get? d = some o →
      (Processed packages s.nodes d o ∧ Drawn packages node d) ∨
      ∃ item ∈ s.pending, item.reference = d ∧ item.options = o ∧ item.parent = some id

theorem reachInv_start (pkgs : FeatureCatalog) (requests : List FeatureRequest) :
    ReachInv pkgs requests ⟨rootRequests requests,.empty⟩ where
  pending := by
    intro x hi
    obtain ⟨q,hq,rfl⟩ := mem_map.mp hi
    exact .root hq
  parents := by
    intro x hi id hid
    obtain ⟨q,hq,rfl⟩ := mem_map.mp hi
    cases hid
  nodes := by simp
  roots := by
    intro q hq
    exact .inr ⟨_,mem_map.mpr ⟨q,hq,rfl⟩,rfl,rfl⟩
  owed := by simp

section
variable {pkgs : FeatureCatalog} {requests : List FeatureRequest} {s t : Expansion}

/-- A request taken from the queue: what it found and what became of the nodes. -/
structure Popped (packages : FeatureCatalog) (s t : Expansion) (item : Pending)
    (package : FeaturePackage) (effective : FeatureOptions) : Prop where
  accepts : Accepts packages item.reference item.options package effective
  old : ∀ existing, s.nodes.get? package.identity = some existing → existing.options = effective
  /-- The old node or, for a new identity, the item's own, with the edge from its requester. -/
  get : ∀ id, t.nodes.get? id =
    ((s.nodes.get? id).or (if package.identity = id then some (newNode package effective item)
      else none)).map fun node =>
        if item.parent = some id then
          { node with dependencies := node.dependencies.insertKey package.identity }
        else node
  head : s.pending = item::s.pending.tail
  queue : ∀ owed, owed ∈ t.pending ↔ owed ∈ s.pending.tail ∨
    s.nodes.get? package.identity = none ∧ owed ∈ dependencyRequests package item

theorem expandStep_popped (h : expandStep pkgs s = .inl t) :
    ∃ x pkg effective, Popped pkgs s t x pkg effective := by
  obtain ⟨x,xs,added,hpe,hi,ht⟩ := expandStep_cases h
  obtain ⟨pkg,effective,hp,hr,hv,hc⟩ := expandItem_eq_ok.mp hi
  obtain ⟨pend,nodes⟩ := s
  obtain ⟨pend',nodes'⟩ := t
  subst hpe ht
  refine ⟨x,pkg,effective,⟨hp,hr,validateOptions_eq_ok.mp hv⟩,?_,?_,rfl,?_⟩
  · rcases hc with ⟨old,hn,ho,-⟩ | ⟨hn,-⟩
    · simpa [hn] using ho
    · simp [hn]
  · intro id
    rcases hc with ⟨old,hn,-,-,rfl⟩ | ⟨hn,-,rfl⟩
    · rw [addDependency_eq,OrderedMap.get?_mapValues]
      by_cases hid : pkg.identity = id
      · rw [← hid,hn]
        rfl
      · rw [if_neg hid,or_none]
    · rw [addDependency_eq,OrderedMap.get?_mapValues,OrderedMap.get?_insert]
      by_cases hid : pkg.identity = id
      · rw [← hid,hn,if_pos rfl,if_pos rfl,none_or]
      · rw [if_neg hid,if_neg hid,or_none]
  · rcases hc with ⟨old,hn,-,rfl,-⟩ | ⟨hn,rfl,-⟩ <;> simp [hn]

section
variable {x : Pending} {pkg : FeaturePackage} {effective : FeatureOptions}
  (hpo : Popped pkgs s t x pkg effective)
include hpo

variable {id : FeatureInstallIdentity}

theorem Popped.member : x ∈ s.pending := hpo.head ▸ mem_cons_self

theorem Popped.kept {owed : Pending} (ho : owed ∈ s.pending) : owed = x ∨ owed ∈ t.pending := by
  rw [hpo.head] at ho
  exact (mem_cons.mp ho).imp_right fun hr => (hpo.queue owed).mpr (.inl hr)

theorem Popped.keeps {n : Node} (hn : s.nodes.get? id = some n) :
    ∃ n', t.nodes.get? id = some n' ∧ n'.package = n.package ∧ n'.options = n.options ∧
      (∀ d, Drawn pkgs n d → Drawn pkgs n' d) ∧
      (x.parent = some id → pkg.identity ∈ n'.dependencies.keys) := by
  rw [hpo.get id,hn,some_or,map_some]
  refine ⟨_,rfl,?_⟩
  split_ifs with hpa
  · refine ⟨rfl,rfl,?_,fun _ => OrderedSet.mem_insertKey.mpr (.inl rfl)⟩
    rintro d ⟨p,hp,hd⟩
    exact ⟨p,hp,OrderedSet.mem_insertKey.mpr (.inr hd)⟩
  · exact ⟨rfl,rfl,fun _ hd => hd,fun h => absurd h hpa⟩

theorem Popped.fresh {n : Node} (hn : s.nodes.get? id = none) (hno : t.nodes.get? id = some n) :
    pkg.identity = id := by
  rw [hpo.get id,hn,none_or,map_eq_some_iff] at hno
  obtain ⟨base,hb,-⟩ := hno
  split_ifs at hb with hid
  exact hid

variable {r : FeatureReference} {o : FeatureOptions}

theorem Popped.processed_mono (h : Processed pkgs s.nodes r o) : Processed pkgs t.nodes r o := by
  obtain ⟨p,n,ha,hn⟩ := h
  obtain ⟨n',hn',-,ho,-⟩ := hpo.keeps hn
  exact ⟨p,n',ho ▸ ha,hn'⟩

theorem Popped.node : ∃ n, t.nodes.get? pkg.identity = some n ∧ n.options = effective ∧
    (s.nodes.get? pkg.identity = none → n.package = pkg) := by
  cases hn : s.nodes.get? pkg.identity with
  | some old =>
    obtain ⟨n,hno,-,ho,-⟩ := hpo.keeps hn
    exact ⟨n,hno,ho.trans (hpo.old old hn),nofun⟩
  | none =>
    have hno := hpo.get pkg.identity
    rw [hn,if_pos rfl,none_or,map_some] at hno
    refine ⟨_,hno,?_,fun _ => ?_⟩ <;> split_ifs <;> rfl

theorem Popped.processed : Processed pkgs t.nodes x.reference x.options := by
  obtain ⟨n,hn,ho,-⟩ := hpo.node
  exact ⟨pkg,n,ho ▸ hpo.accepts,hn⟩

theorem Popped.stands (hs : ReachInv pkgs requests s) {node : Node}
    (hno : t.nodes.get? id = some node) : Stands pkgs requests id node := by
  rw [hpo.get id,map_eq_some_iff] at hno
  obtain ⟨base,hba,rfl⟩ := hno
  -- The requesting node is an old one, which declares the item.
  have hpa := hs.parents x hpo.member id
  cases hn : s.nodes.get? id with
  | some old =>
    rw [hn,some_or,some.injEq] at hba
    subst hba
    have ho := hs.nodes id old hn
    split_ifs with hp
    · refine ⟨ho.identity,ho.request,ho.priority,?_⟩
      intro b hb
      rcases OrderedSet.mem_insertKey.mp hb with rfl | hb
      · obtain ⟨node,hno,hd⟩ := hpa hp
        rw [hn,some.injEq] at hno
        exact ⟨x.reference,hno ▸ hd,pkg,hpo.accepts.found,rfl⟩
      · exact ho.edges b hb
    · exact ho
  | none =>
    rw [hn,none_or] at hba
    split_ifs at hba with hid
    obtain rfl := some.inj hba
    have hnt : x.parent ≠ some id := by
      intro hp
      obtain ⟨node,hno,-⟩ := hpa hp
      rw [hn] at hno
      cases hno
    rw [if_neg hnt]
    have hr := hpo.accepts.named.symm
    refine ⟨hid,⟨x.options,?_,?_,rfl⟩,rfl,?_⟩
    · exact hr ▸ hs.pending x hpo.member
    · exact hr ▸ hpo.accepts
    · exact nofun

end

/-- One item keeps every description and leaves every other debt in the queue. -/
theorem reachInv_step (hs : ReachInv pkgs requests s)
    (h : expandStep pkgs s = .inl t) : ReachInv pkgs requests t := by
  obtain ⟨x,pkg,effective,hpo⟩ := expandStep_popped h
  have hi := hs.pending x hpo.member
  refine ⟨?_,?_,fun id n => hpo.stands hs,?_,?_⟩
  · intro owed ho
    rcases (hpo.queue owed).mp ho with hol | ⟨-,hne⟩
    · exact hs.pending owed (mem_of_mem_tail hol)
    · obtain ⟨e,he,rfl⟩ := mem_map.mp hne
      exact hi.step hpo.accepts.found (OrderedMap.mem_entries _ |>.mp he)
  · intro owed ho id hid
    rcases (hpo.queue owed).mp ho with hol | ⟨hn,hne⟩
    · obtain ⟨n,hno,hde⟩ := hs.parents owed (mem_of_mem_tail hol) id hid
      obtain ⟨n',hno',hpa,-⟩ := hpo.keeps hno
      exact ⟨n',hno',hpa ▸ hde⟩
    · obtain ⟨e,he,rfl⟩ := mem_map.mp hne
      obtain ⟨n,hno,-,hpa⟩ := hpo.node
      cases hid
      refine ⟨n,hno,?_⟩
      rw [hpa hn]
      exact mem_map_of_mem he
  · intro q hq
    rcases hs.roots q hq with hdo | ho
    · exact .inl (hpo.processed_mono hdo)
    · obtain ⟨owed,ho,hr,hop⟩ := ho
      rcases hpo.kept ho with rfl | hk
      · exact .inl (hr ▸ hop ▸ hpo.processed)
      · exact .inr ⟨owed,hk,hr,hop⟩
  · intro id n' hno' d o hd
    cases hn : s.nodes.get? id with
    | some old =>
      obtain ⟨n,hno,hpa,-,hdr,hpr⟩ := hpo.keeps hn
      obtain rfl := some.inj (hno'.symm.trans hno)
      rw [hpa] at hd
      rcases hs.owed id old hn d o hd with ⟨hdo,hol⟩ | ⟨owed,ho,rfl,rfl,hp⟩
      · exact .inl ⟨hpo.processed_mono hdo,hdr d hol⟩
      · rcases hpo.kept ho with rfl | hk
        · exact .inl ⟨hpo.processed,pkg,hpo.accepts.found,hpr hp⟩
        · exact .inr ⟨owed,hk,rfl,rfl,hp⟩
    | none =>
      obtain rfl := hpo.fresh hn hno'
      obtain ⟨n,hno,-,hpa⟩ := hpo.node
      rw [hno',some.injEq] at hno
      rw [hno,hpa hn] at hd
      refine .inr ⟨⟨d,o,some pkg.identity,x.path++[d]⟩,?_,rfl,rfl,rfl⟩
      refine (hpo.queue _).mpr (.inr ⟨hn,?_⟩)
      exact mem_map.mpr ⟨(d, o),(OrderedMap.mem_entries _).mpr hd,rfl⟩

end

/-- The nodes are described by the requests alone. -/
structure Described (packages : FeatureCatalog) (requests : List FeatureRequest)
    (nodes : Nodes) : Prop where
  stands : ∀ id node, nodes.get? id = some node → Stands packages requests id node
  roots : ∀ q ∈ requests, Processed packages nodes q.reference q.options
  owed : ∀ id node, nodes.get? id = some node → ∀ d o,
    node.package.metadata.dependsOn.get? d = some o →
      Processed packages nodes d o ∧ Drawn packages node d

theorem expandStep_done {s : Expansion} {r : Except FeatureError Nodes}
    (h : expandStep pkgs s = .inr r) :
    (s.pending = [] ∧ r = .ok s.nodes) ∨
      ∃ x ∈ s.pending, ∃ e, expandItem pkgs s.nodes x = .error e ∧ r = .error e := by
  unfold expandStep at h
  cases hp : s.pending with
  | nil =>
    rw [hp] at h
    exact .inl ⟨rfl,(Sum.inr.inj h).symm⟩
  | cons x xs =>
    simp only [hp] at h
    cases hi : expandItem pkgs s.nodes x with
    | error e =>
      simp only [hi,Sum.inr.injEq] at h
      exact .inr ⟨x,mem_cons_self,e,hi,h.symm⟩
    | ok v => simp [hi] at h

theorem expansion_described {requests : List FeatureRequest} {nodes : Nodes}
    (h : (expansion pkgs).run ⟨rootRequests requests,.empty⟩ = .ok nodes) :
    Described pkgs requests nodes := by
  have hru := (expansion pkgs).run_invariant (I := ReachInv pkgs requests)
    (Q := fun r => ∀ nodes, r = .ok nodes → Described pkgs requests nodes)
    (fun s t hs ht => reachInv_step hs ht) ?_ (reachInv_start pkgs requests)
  · exact hru nodes h
  · intro s r hs hr nodes hok
    rcases expandStep_done hr with ⟨hp,rfl⟩ | ⟨x,-,e,-,rfl⟩
    · obtain rfl := Except.ok.inj hok
      refine ⟨hs.nodes,?_,?_⟩
      · intro q hq
        exact (hs.roots q hq).resolve_right (by simp [hp])
      · intro id n hn d o hd
        exact (hs.owed id n hn d o hd).resolve_right (by simp [hp])
    · cases hok

/-- Packages of one identity have one metadata. -/
def Coherent (packages : FeatureCatalog) : Prop :=
  ∀ r r' package package', packages.get? r = some package → packages.get? r' = some package' →
    package.identity = package'.identity → package.metadata = package'.metadata

/-- Every request is accepted, and requests of one identity come to the same options. -/
structure Acceptable (packages : FeatureCatalog) (requests : List FeatureRequest) : Prop where
  found : ∀ r o, Reached packages requests r o →
    ∃ package effective, Accepts packages r o package effective
  agree : ∀ r o r' o' package package' effective effective', Reached packages requests r o →
    Reached packages requests r' o' → Accepts packages r o package effective →
    Accepts packages r' o' package' effective' → package.identity = package'.identity →
      effective = effective'

section
variable {pkgs : FeatureCatalog} {requests : List FeatureRequest} {nodes : Nodes}

theorem Described.mem_dependencies (hno : Described pkgs requests nodes)
    {id b : FeatureInstallIdentity} {n : Node} (hn : nodes.get? id = some n) :
    b ∈ n.dependencies.keys ↔ ∃ d ∈ n.package.metadata.dependsOn.keys,
      ∃ pkg, pkgs.get? d = some pkg ∧ pkg.identity = b := by
  constructor
  · exact (hno.stands id n hn).edges b
  · rintro ⟨d,hd,pkg,hp,rfl⟩
    obtain ⟨o,ho⟩ := OrderedMap.mem_keys.mp hd
    obtain ⟨pkg',hp',hdr⟩ := (hno.owed id n hn d o ho).2
    rw [hp,some.injEq] at hp'
    exact hp' ▸ hdr

theorem Accepts.unique {pkg pkg' : FeaturePackage} {effective effective' : FeatureOptions}
    (h : Accepts pkgs r o pkg effective) (h' : Accepts pkgs r o pkg' effective') :
    pkg = pkg' ∧ effective = effective' := by
  obtain rfl := some.inj (h.found.symm.trans h'.found)
  exact ⟨rfl,some.inj (h.effective.symm.trans h'.effective)⟩

theorem Described.processed (hc : Coherent pkgs)
    (hn : Described pkgs requests nodes) (h : Reached pkgs requests r o) :
    Processed pkgs nodes r o := by
  induction h with
  | root hq => exact hn.roots _ hq
  | @step r d o opts pkg _ hp hd ih =>
    obtain ⟨pkg',n,ha,hno⟩ := ih
    obtain rfl := some.inj (hp.symm.trans ha.found)
    have hs := hn.stands _ n hno
    obtain ⟨o',-,ho,-⟩ := hs.request
    have hm := hc _ _ _ _ ho.found hp hs.identity
    exact (hn.owed _ n hno d opts (hm ▸ hd)).1

theorem expandItem_of_accepts {x : Pending} {pkg : FeaturePackage} {effective : FeatureOptions}
    (ha : Accepts pkgs x.reference x.options pkg effective)
    (ho : ∀ old, nodes.get? pkg.identity = some old → old.options = effective) :
    ∃ r, expandItem pkgs nodes x = .ok r := by
  have hv : validateOptions pkg.metadata x.options x.path = .ok effective :=
    validateOptions_eq_ok.mpr ha.effective
  cases hn : nodes.get? pkg.identity with
  | some old =>
    exact ⟨_,expandItem_eq_ok.mpr ⟨pkg,effective,ha.found,ha.named,hv,
      .inl ⟨old,hn,ho old hn,rfl,rfl⟩⟩⟩
  | none =>
    exact ⟨_,expandItem_eq_ok.mpr ⟨pkg,effective,ha.found,ha.named,hv,.inr ⟨hn,rfl,rfl⟩⟩⟩

theorem Acceptable.expansion_ok (h : Acceptable pkgs requests) :
    ∃ nodes, (expansion pkgs).run ⟨rootRequests requests,.empty⟩ = .ok nodes := by
  refine (expansion pkgs).run_invariant (I := ReachInv pkgs requests)
    (Q := fun r => ∃ nodes, r = .ok nodes) (fun s t hs ht => reachInv_step hs ht) ?_
    (reachInv_start pkgs requests)
  intro s r hs hr
  rcases expandStep_done hr with ⟨-,rfl⟩ | ⟨x,hi,e,he,-⟩
  · exact ⟨_,rfl⟩
  · -- A node of the item's identity stands for a request with the same options.
    obtain ⟨pkg,effective,ha⟩ := h.found _ _ (hs.pending x hi)
    have ho : ∀ old, s.nodes.get? pkg.identity = some old → old.options = effective := by
      intro old hn
      have hst := hs.nodes _ old hn
      obtain ⟨o,hre,how,-⟩ := hst.request
      exact h.agree _ _ _ _ _ _ _ _ hre (hs.pending x hi) how ha hst.identity
    obtain ⟨out,hou⟩ := expandItem_of_accepts ha ho
    cases he.symm.trans hou

theorem Described.acceptable (hc : Coherent pkgs)
    (hno : Described pkgs requests nodes) : Acceptable pkgs requests where
  found := by
    intro r o hre
    obtain ⟨pkg,n,ha,-⟩ := hno.processed hc hre
    exact ⟨pkg,n.options,ha⟩
  agree := by
    intro r o r' o' pkg pkg' effective effective' hr hr' ha ha' hi
    obtain ⟨p,n,ho,hn⟩ := hno.processed hc hr
    obtain ⟨p',n',ho',hn'⟩ := hno.processed hc hr'
    obtain ⟨rfl,rfl⟩ := ha.unique ho
    obtain ⟨rfl,rfl⟩ := ha'.unique ho'
    rw [hi,hn',some.injEq] at hn
    rw [hn]

/-- The queue succeeds exactly when the requests, in whatever order, allow it. -/
theorem expansion_ok_iff (hc : Coherent pkgs) :
    (∃ nodes, (expansion pkgs).run ⟨rootRequests requests,.empty⟩ = .ok nodes) ↔
      Acceptable pkgs requests := by
  constructor
  · rintro ⟨nodes,hn⟩
    exact (expansion_described hn).acceptable hc
  · exact Acceptable.expansion_ok

end

end Cdenv.FeatureResolution
