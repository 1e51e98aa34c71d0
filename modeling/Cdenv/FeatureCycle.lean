import Cdenv.FeatureOrder

/-!
# When installation rounds get stuck

A round that finds nothing to install leaves nodes of which each waits for another one that
is left. A search from any of them then runs into its own path, and what it reports is a closed
walk of declared edges. A resolution that installs everything has put every edge's target before
its source, so there is no such walk. The two together decide when a cycle is reported.

The items processed and those still queued are together the requests and the entries of the
nodes, which bounds the queue; the search calls itself with a longer path of different nodes.
-/
namespace Cdenv.FeatureResolution
open DependencyOrder Fallible List

variable {ns : Nodes}

section
variable {β S : Type*} {g : β → S → Option (List FeatureInstallIdentity) × S}

/-- Go on searching where the last search ended, until one finds something. -/
def searchNext (g : β → S → Option (List FeatureInstallIdentity) × S)
    (acc : Option (List FeatureInstallIdentity) × S) (b : β) :
    Option (List FeatureInstallIdentity) × S :=
  match acc.1 with
  | some _ => acc
  | none => g b acc.2

theorem foldl_searchNext_some {l : List β} {acc : Option (List FeatureInstallIdentity) × S}
    (h : acc.1.isSome) : l.foldl (searchNext g) acc = acc := by
  induction l with
  | nil => rfl
  | cons b l ih =>
    obtain ⟨walk,hw⟩ := Option.isSome_iff_exists.mp h
    rw [foldl_cons,searchNext,hw,ih]

/-- What a row of searches finds, one of them found. -/
theorem exists_of_foldl_searchNext {l : List β} {s : S} {walk : List FeatureInstallIdentity}
    (h : (l.foldl (searchNext g) (none, s)).1 = some walk) :
    ∃ b ∈ l, ∃ s', (g b s').1 = some walk := by
  induction l generalizing s with
  | nil => cases h
  | cons b l ih =>
    change (l.foldl (searchNext g) (g b s)).1 = some walk at h
    cases hb : (g b s).1 with
    | some fs =>
      rw [foldl_searchNext_some (by simp [hb])] at h
      exact ⟨b,mem_cons_self,s,h⟩
    | none =>
      have hp : g b s = (none, (g b s).2) := Prod.ext hb rfl
      rw [hp] at h
      obtain ⟨b',hb',s',hf⟩ := ih h
      exact ⟨b',mem_cons_of_mem _ hb',s',hf⟩

end

/-- The edges that the search follows. -/
def searchEdges (nodes : Nodes) (identity : FeatureInstallIdentity) : List FeatureInstallIdentity :=
  (((nodes.get? identity).map fun node => node.dependencies.keys).getD []).filter nodes.contains

theorem visit_succ (ns : Nodes) (d : ℕ) (identity : FeatureInstallIdentity)
    (vis : List FeatureInstallIdentity) (visited : OrderedSet FeatureInstallIdentity) :
    visit ns (d+1) identity vis visited =
      if identity ∈ vis then
        (some (vis.dropWhile (· ≠ identity)++[identity]), visited)
      else if visited.contains identity then (none, visited)
      else
        let r := (searchEdges ns identity).foldl
          (searchNext fun dep => visit ns d dep (vis++[identity]))
          (none, visited)
        (r.1, if r.1.isSome then r.2 else OrderedSet.insertKey r.2 identity) := by
  rw [visit]
  split_ifs with hvi hv
  · rfl
  · rfl
  · dsimp only
    split
    · next cycle hf =>
      exact Prod.ext hf.symm (if_pos (Option.isSome_iff_exists.mpr ⟨cycle,hf⟩)).symm
    · next hf =>
      exact Prod.ext hf.symm (if_neg (Option.not_isSome_iff_eq_none.mpr hf)).symm

theorem mem_searchEdges {a b : FeatureInstallIdentity} :
    b ∈ searchEdges ns a ↔ Edge ns a b ∧ b ∈ ns.keys := by
  unfold searchEdges Edge
  rw [mem_filter,OrderedMap.contains_iff]
  cases ns.get? a with
  | none | some node => simp

variable {identity : FeatureInstallIdentity} {vis walk : List FeatureInstallIdentity}

/-- What is found on a path is a closed walk that ends on it. -/
theorem visit_closedWalk {d : ℕ} {visited : OrderedSet FeatureInstallIdentity}
    (hp : (vis++[identity]).IsChain (Edge ns))
    (h : (visit ns d identity vis visited).1 = some walk) :
    ClosedWalk (Edge ns) walk := by
  induction d generalizing identity vis visited with
  | zero => cases h
  | succ d ih =>
    rw [visit_succ] at h
    split_ifs at h with hv hvi
    · obtain rfl := Option.some.inj h
      have hne : vis.dropWhile (· ≠ identity) ≠ [] := by
        rw [ne_eq,dropWhile_eq_nil_iff]
        intro ha
        simpa using ha identity hv
      have hh : (vis.dropWhile (· ≠ identity)).head? = some identity := by
        have hs := head?_dropWhile_not (fun b => decide (b ≠ identity)) vis
        obtain ⟨b,xs,hb⟩ := exists_cons_of_ne_nil hne
        rw [hb,head?_cons] at hs ⊢
        simpa using hs
      refine ⟨?_,?_,?_⟩
      · exact hp.suffix (suffix_append_inj_of_length_eq rfl |>.mpr ⟨dropWhile_suffix _,rfl⟩)
      · rw [head?_append_of_ne_nil _ hne,hh,getLast?_append]
        rfl
      · have hpo := length_pos_of_ne_nil hne
        rw [length_append,length_singleton]
        omega
    · obtain ⟨dep,hm,visited',hf⟩ := exists_of_foldl_searchNext h
      refine ih ?_ hf
      rw [append_assoc]
      exact isChain_append_cons_cons.mpr ⟨hp,(mem_searchEdges.mp hm).1,isChain_singleton _⟩

/-- Every node waits for another one. -/
def Stuck (nodes : Nodes) : Prop := ∀ a ∈ nodes.keys, ∃ b ∈ nodes.keys, Edge nodes a b

/-- Among stuck nodes a path can always be continued, and it has no more nodes than there are. -/
theorem visit_isSome (hs : Stuck ns) {d : ℕ} (hi : identity ∈ ns.keys)
    (hv : vis ⊆ ns.keys) (hno : vis.Nodup)
    (hd : ns.size < vis.length+d) :
    (visit ns d identity vis .empty).1.isSome := by
  induction d generalizing identity vis with
  | zero =>
    have hl := (subperm_of_subset hno hv).length_le
    rw [OrderedMap.keys,length_map] at hl
    have hsi : ns.size = ns.entries.length := rfl
    omega
  | succ d ih =>
    rw [visit_succ]
    split_ifs with hm hvi
    · rfl
    · cases hvi
    · obtain ⟨b,hb,he⟩ := hs identity hi
      have hed := mem_searchEdges.mpr ⟨he,hb⟩
      obtain ⟨next,xs,hn⟩ := exists_cons_of_ne_nil (ne_nil_of_mem hed)
      have hne : next ∈ ns.keys := by
        have hm := hn ▸ mem_cons_self
        exact (mem_searchEdges.mp hm).2
      have hf := ih hne (append_subset.mpr ⟨hv,by simpa using hi⟩)
        (hno.append (nodup_singleton _) (by simpa using hm))
        (by rw [length_append,length_singleton]; omega)
      rw [hn,foldl_cons]
      change (xs.foldl _ (visit ns d next (vis++[identity]) .empty)).1.isSome
      rwa [foldl_searchNext_some hf]

theorem findCycle_closedWalk (h : findCycle ns = some walk) : ClosedWalk (Edge ns) walk := by
  obtain ⟨identity,-,visited,hf⟩ := exists_of_foldl_searchNext
    (g := fun identity => visit ns (ns.size+1) identity []) h
  exact visit_closedWalk (isChain_singleton _) hf

theorem findCycle_isSome (hs : Stuck ns) (hne : ns.keys ≠ []) : (findCycle ns).isSome := by
  obtain ⟨identity,xs,hk⟩ := exists_cons_of_ne_nil hne
  have hf : (visit ns (ns.size+1) identity [] .empty).1.isSome :=
    visit_isSome hs (hk ▸ mem_cons_self) (nil_subset _) nodup_nil (by simp)
  unfold findCycle
  rw [hk,foldl_cons]
  change (xs.foldl (searchNext fun identity => visit ns (ns.size+1) identity [])
    (visit ns (ns.size+1) identity [] .empty)).1.isSome
  rwa [foldl_searchNext_some hf]

theorem roundStep_error {s : Rounds} {e : FeatureError} (h : roundStep s = .inr (.error e)) :
    s.nodes.keys ≠ [] ∧ readyEntries s = [] ∧ e = cycleError s.nodes := by
  unfold roundStep at h
  split_ifs at h with he hr
  · simp at h
  · refine ⟨?_,by simpa using hr,?_⟩
    · intro hk
      apply he
      rw [OrderedMap.keys,map_eq_nil_iff] at hk
      rw [hk]
      rfl
    · simpa [eq_comm] using h

/-- A failed sort stopped at stuck nodes, and its walk is one of the given edges. -/
theorem roundSort_error (hi : ∀ a b, Edge ns a b → b ∈ ns.keys) {e : FeatureError}
    (h : roundSort ns = .error e) :
    ∃ remaining walk, findCycle remaining = some walk ∧ ClosedWalk (Edge ns) walk ∧
      e = cycleError remaining := by
  have hru := rounds.run_invariant (I := RoundInv ns)
    (Q := fun r => ∀ e, r = .error e → ∃ remaining walk, findCycle remaining = some walk ∧
      ClosedWalk (Edge ns) walk ∧ e = cycleError remaining)
    (fun s t hs ht => roundStep_inv hs ht) ?_ (roundInv_start ns)
  · exact hru e h
  · intro s r hs hr e he
    obtain ⟨hne,hra,hcy⟩ := roundStep_error (hr.trans (congrArg _ he))
    have hre : ∀ a b, Edge s.nodes a b → Edge ns a b := by
      rintro a b ⟨n,hn,hb⟩
      exact ⟨n,hs.remaining a n hn,hb⟩
    have hst : Stuck s.nodes := by
      intro a ha
      obtain ⟨n,hn⟩ := OrderedMap.mem_keys.mp ha
      have hw : ¬ n.dependencies.isSubset s.installed = true := by
        intro hsu
        have hm : (a, n) ∈ readyEntries s := mem_filter.mpr ⟨s.nodes.mem_entries.mpr hn,hsu⟩
        rw [hra] at hm
        cases hm
      rw [OrderedSet.isSubset_iff] at hw
      push Not at hw
      obtain ⟨b,hb,hmi⟩ := hw
      have hed : Edge s.nodes a b := ⟨n,hn,hb⟩
      refine ⟨b,?_,hed⟩
      refine (hs.cover b (hi a b (hre a b hed))).resolve_left ?_
      rw [← hs.installed]
      exact hmi
    obtain ⟨walk,hwa⟩ := Option.isSome_iff_exists.mp (findCycle_isSome hst hne)
    have hc := findCycle_closedWalk hwa
    exact ⟨s.nodes,walk,hwa,⟨hc.chain.imp fun a b => hre a b,hc.returns,hc.moves⟩,hcy⟩

/-- When the queue and the overrides succeed, a cycle is reported exactly when the declared
edges have one, and the identities reported are a closed walk along them. -/
theorem dependencyCycle_iff (urls : UrlCrate) (requests : List FeatureRequest)
    (packages : FeatureCatalog) (overrides : List Text) (nodes resolved : Nodes)
    (hexpand : (expansion packages).run ⟨rootRequests requests,.empty⟩ = .ok nodes)
    (hoverrides : applyPriorities (applySoftEdges urls nodes) overrides = .ok resolved) :
    ((∃ text, resolveFeatures urls requests packages overrides = .error (.dependencyCycle text)) ↔
      ∃ id, Relation.TransGen (Declares urls packages nodes) id id) ∧
    ∀ text, resolveFeatures urls requests packages overrides = .error (.dependencyCycle text) →
      ∃ remaining walk, findCycle remaining = some walk ∧
        ClosedWalk (Declares urls packages nodes) walk ∧
        .dependencyCycle text = cycleError remaining := by
  have hr : resolveFeatures urls requests packages overrides = roundSort resolved := by
    unfold resolveFeatures
    rw [hexpand]
    change (applyPriorities (applySoftEdges urls nodes) overrides >>= roundSort) = _
    rw [hoverrides]
    rfl
  have hd := expansion_described hexpand
  have hed := edge_eq_declares hd hoverrides
  have he := fun e => roundSort_error (e := e) fun a b => edge_mem hd hoverrides
  rw [hr,← hed]
  refine ⟨⟨?_,?_⟩,fun text h => he _ h⟩
  · rintro ⟨text,ht⟩
    obtain ⟨remaining,walk,-,hw,-⟩ := he _ ht
    exact hw.transGen
  · rintro ⟨id,hc⟩
    cases hs : roundSort resolved with
    | error e =>
      obtain ⟨remaining,walk,-,-,rfl⟩ := he e hs
      exact ⟨_,rfl⟩
    | ok r =>
      have hso := roundSort_sorted hs
      have hm : id ∈ resolved.keys := by
        obtain ⟨b,⟨n,hn,-⟩,-⟩ := Relation.TransGen.head'_iff.mp hc
        exact OrderedMap.mem_keys.mpr ⟨n,hn⟩
      exact absurd hc (hso.scheduled.acyclic (hso.complete id hm))

def cyclicCatalog : FeatureCatalog :=
  .ofList ([localPackage "./a" [.localPath "./b"] [],
    localPackage "./b" [] ["./a"]].map fun p => (p.reference, p))

def cyclicRequests : List FeatureRequest := [⟨.localPath "./a",.empty⟩]

theorem dependencyCycle_sample : ∃ nodes resolved,
      (expansion cyclicCatalog).run ⟨rootRequests cyclicRequests,.empty⟩ = .ok nodes ∧
      applyPriorities (applySoftEdges noUrls nodes) [] = .ok resolved ∧
      resolveFeatures noUrls cyclicRequests cyclicCatalog [] =
        .error (.dependencyCycle "./a -> ./b -> ./a") ∧
      ∃ id, Relation.TransGen (Declares noUrls cyclicCatalog nodes) id id := by
  obtain ⟨nodes,hep,-⟩ : ∃ nodes, (expansion cyclicCatalog).run
      ⟨rootRequests cyclicRequests,.empty⟩ = .ok nodes ∧ True :=
    exists_ok_and (by decide +kernel) fun _ _ h => h
  have ho : applyPriorities (applySoftEdges noUrls nodes) [] =
      .ok (applySoftEdges noUrls nodes) := rfl
  have he : resolveFeatures noUrls cyclicRequests cyclicCatalog [] =
      .error (.dependencyCycle "./a -> ./b -> ./a") := by
    rfl
  exact ⟨nodes,_,hep,ho,he,(dependencyCycle_iff _ _ _ _ nodes _ hep ho).1.mp ⟨_,he⟩⟩

open OrderedMap

def introduced (nodes : Nodes) : ℕ :=
  (nodes.values.map fun node => node.package.metadata.dependsOn.size).sum

section
variable {pkgs : FeatureCatalog} {reqs : List FeatureRequest} {s t : Expansion} {n : ℕ}

/-- An item is processed, and its entries are queued exactly when its package becomes a node. -/
theorem expandStep_count (h : expandStep pkgs s = .inl t) :
    t.pending.length+1+introduced s.nodes = s.pending.length+introduced t.nodes := by
  have hd : ∀ (nodes : Nodes) p ch, introduced (addDependency nodes p ch) = introduced nodes := by
    intro nodes p ch
    rw [addDependency_eq]
    unfold introduced values mapValues
    rw [map_map,map_map,map_map]
    congr 2
    funext e
    dsimp only [Function.comp_apply]
    split_ifs <;> rfl
  obtain ⟨x,xs,added,hp,hi,ht⟩ := expandStep_cases h
  obtain ⟨pkg,eff,-,-,-,hc⟩ := expandItem_eq_ok.mp hi
  rw [hp,ht,length_append,length_cons]
  rcases hc with ⟨old,-,-,rfl,hn⟩ | ⟨hne,rfl,hn⟩
  · rw [hn,hd,length_nil]
  · have hf : pkg.identity ∉ s.nodes.keys := by simp [OrderedMap.mem_keys,hne]
    have hpe := perm_insert (newNode pkg eff x) hf
    have hs := ((hpe.map Prod.snd).map fun nd => nd.package.metadata.dependsOn.size).sum_eq
    change introduced _ = pkg.metadata.dependsOn.size+introduced s.nodes at hs
    rw [hn,hd,hs,dependencyRequests,length_map,size]
    omega

theorem steps_count (h : Loop.Steps (expandStep pkgs) ⟨rootRequests reqs,.empty⟩ n s) :
    n+s.pending.length = reqs.length+introduced s.nodes := by
  induction h with
  | start => simp [rootRequests,introduced,values,empty]
  | next _ hs ih =>
    have hc := expandStep_count hs
    omega

/-- One of the first items to be processed has this package, and none before it has its
identity. -/
def Introduces (packages : FeatureCatalog) (requests : List FeatureRequest) (n : ℕ)
    (id : FeatureInstallIdentity) (package : FeaturePackage) : Prop :=
  ∃ m s item, m < n ∧ Loop.Steps (expandStep packages) ⟨rootRequests requests,.empty⟩ m s ∧
    s.pending.head? = some item ∧ packages.get? item.reference = some package ∧
    package.identity = id ∧ id ∉ s.nodes.keys

theorem steps_introduces (h : Loop.Steps (expandStep pkgs) ⟨rootRequests reqs,.empty⟩ n s)
    {id : FeatureInstallIdentity} {nd : Node} (hn : s.nodes.get? id = some nd) :
    Introduces pkgs reqs n id nd.package := by
  induction h generalizing nd with
  | start => cases hn
  | @next n s t hst hs ih =>
    obtain ⟨x,pkg,eff,hp⟩ := expandStep_popped hs
    cases ho : s.nodes.get? id with
    | some old =>
      obtain ⟨nd',hn',hpa,-⟩ := hp.keeps ho
      obtain rfl := Option.some.inj (hn.symm.trans hn')
      obtain ⟨m,s',x',hm,hr⟩ := ih ho
      exact ⟨m,s',x',by omega,hpa ▸ hr⟩
    | none =>
      obtain rfl := hp.fresh ho hn
      obtain ⟨nd',hn',-,hpa⟩ := hp.node
      obtain rfl := Option.some.inj (hn.symm.trans hn')
      rw [hpa ho]
      refine ⟨n,s,x,by omega,hst,by rw [hp.head]; rfl,hp.accepts.found,rfl,?_⟩
      simp [OrderedMap.mem_keys,ho]

end

/-- The calls of the search, without a bound on their depth: the identities that are left to a
loop, the path to it, what is done before and what comes of it. A derivation is a finite tree of
calls. -/
inductive Searches (nodes : Nodes) : List FeatureInstallIdentity → List FeatureInstallIdentity →
    OrderedSet FeatureInstallIdentity →
    Option (List FeatureInstallIdentity) × OrderedSet FeatureInstallIdentity → Prop
  | nil {visiting visited} : Searches nodes [] visiting visited (none, visited)
  | cycle {identity rest visiting visited} (h : identity ∈ visiting) :
      Searches nodes (identity::rest) visiting visited
        (some (visiting.dropWhile (· ≠ identity)++[identity]), visited)
  | known {identity rest visiting visited r} (h : identity ∉ visiting)
      (hv : visited.contains identity = true) (hrest : Searches nodes rest visiting visited r) :
      Searches nodes (identity::rest) visiting visited r
  | found {identity rest visiting visited walk visited'} (h : identity ∉ visiting)
      (hv : visited.contains identity = false)
      (hcall : Searches nodes (searchEdges nodes identity) (visiting++[identity]) visited
        (some walk, visited')) :
      Searches nodes (identity::rest) visiting visited (some walk, visited')
  | next {identity rest visiting visited visited' r} (h : identity ∉ visiting)
      (hv : visited.contains identity = false)
      (hcall : Searches nodes (searchEdges nodes identity) (visiting++[identity]) visited
        (none, visited'))
      (hrest : Searches nodes rest visiting (OrderedSet.insertKey visited' identity) r) :
      Searches nodes (identity::rest) visiting visited r

/-- A path of different nodes leaves room for fewer calls inside each other than there are nodes. -/
theorem searches_visit {ns : Nodes} {d : ℕ} {l vis : List FeatureInstallIdentity}
    (hl : l ⊆ ns.keys) (hvi : vis ⊆ ns.keys) (hn : vis.Nodup)
    (hd : ns.size < vis.length+d) (visited : OrderedSet FeatureInstallIdentity) :
    Searches ns l vis visited
      (l.foldl (searchNext fun id => visit ns d id vis) (none, visited)) := by
  induction d generalizing l vis visited with
  | zero =>
    have hle := (subperm_of_subset hn hvi).length_le
    rw [OrderedMap.keys,length_map] at hle
    have hs : ns.size = ns.entries.length := rfl
    omega
  | succ d ih =>
    induction l generalizing visited with
    | nil => exact .nil
    | cons ident xs ihl =>
      obtain ⟨hid,hr⟩ := cons_subset.mp hl
      rw [foldl_cons]
      change Searches ns _ _ _ (xs.foldl _ (visit ns (d+1) ident vis visited))
      rw [visit_succ]
      split_ifs with hm hv
      · rw [foldl_searchNext_some rfl]
        exact .cycle hm
      · exact .known hm hv (ihl hr visited)
      · have hc := @ih (searchEdges ns ident) (vis++[ident]) (fun b hb => (mem_searchEdges.mp hb).2)
          (append_subset.mpr ⟨hvi,by simpa using hid⟩)
          (hn.append (nodup_singleton _) (by simpa using hm))
          (by rw [length_append,length_singleton]; omega) visited
        generalize (searchEdges ns ident).foldl (searchNext fun id =>
          visit ns d id (vis++[ident])) (none, visited) = r at hc ⊢
        obtain ⟨_ | walk,visited'⟩ := r
        · exact .next hm (by simpa using hv) hc (ihl hr _)
        · rw [foldl_searchNext_some rfl]
          exact .found hm (by simpa using hv) hc

/-- The queue comes to an end, with a failure or with nothing left, after no more items than there
are requests and entries of the packages that first introduced the identities reached; where it
fails, the item that made it fail is counted. The search for a cycle is a finite tree of calls. -/
theorem resolution_terminates (packages : FeatureCatalog) (requests : List FeatureRequest) :
    (∃ n last r, Loop.Steps (expandStep packages) ⟨rootRequests requests,.empty⟩ n last ∧
      expandStep packages last = .inr r ∧
      (∀ id node, last.nodes.get? id = some node → Introduces packages requests n id node.package) ∧
      n+min 1 last.pending.length ≤ requests.length+introduced last.nodes) ∧
    ∀ nodes, ∃ visited, Searches nodes nodes.keys [] .empty (findCycle nodes, visited) := by
  constructor
  · obtain ⟨n,last,hs,hl⟩ := (expansion packages).exists_last ⟨rootRequests requests,.empty⟩
    refine ⟨n,last,_,hs,hl,fun id node => steps_introduces hs,?_⟩
    have hc := steps_count hs
    omega
  · intro nodes
    have hse := @searches_visit nodes (nodes.size+1) nodes.keys [] (List.Subset.refl _)
      (nil_subset _) nodup_nil (by simp) .empty
    exact ⟨_,hse⟩

end Cdenv.FeatureResolution
