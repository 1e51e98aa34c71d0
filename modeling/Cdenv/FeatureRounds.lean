import Cdenv.FeatureOrder
import Mathlib.Data.Prod.Lex

/-!
# The installation order, round by round

The rounds are described without the loop: which Features are wanted, what each of them depends
on, its priority and its place among the Features of a round. The key that decides the place ends
with the identity, so it puts the Features of a round in one order, and there is one list that
the rounds can produce. The resolver produces it.
-/
namespace Cdenv.FeatureResolution
open DependencyOrder Fallible List OrderedMap

/-- Resource name, selector, number of requested options from the highest, these options,
identity. -/
def installKey (node : Node) :
    Text ×ₗ Text ×ₗ ℕᵒᵈ ×ₗ List (Text ×ₗ FeatureValue) ×ₗ FeatureInstallIdentity :=
  toLex (node.package.reference.resourceName, toLex (node.package.reference.selector,
    toLex (OrderDual.toDual node.explicitOptions.size,
      toLex (node.explicitOptions.entries.map toLex, node.package.identity))))

theorem cmp_toLex {α β : Type*} [LinearOrder α] [LinearOrder β] (a c : α) (b d : β) :
    cmp (toLex (a, b)) (toLex (c, d)) = (cmp a c).then (cmp b d) := by
  rcases lt_trichotomy a c with h | rfl | h
  · rw [(cmp_eq_lt_iff a c).mpr h]
    exact (cmp_eq_lt_iff _ _).mpr (Prod.Lex.toLex_lt_toLex.mpr (.inl h))
  · rw [cmp_self_eq_eq]
    simp [cmp,cmpUsing,Prod.Lex.toLex_lt_toLex,Ordering.then]
  · rw [(cmp_eq_gt_iff a c).mpr h]
    exact (cmp_eq_gt_iff _ _).mpr (Prod.Lex.toLex_lt_toLex.mpr (.inl h))

theorem compareNodes_ne_gt {left right : Node} :
    compareNodes left right ≠ .gt ↔ installKey left ≤ installKey right := by
  have hs : cmp right.explicitOptions.size left.explicitOptions.size =
      cmp (OrderDual.toDual left.explicitOptions.size)
        (OrderDual.toDual right.explicitOptions.size) := rfl
  have hc : compareNodes left right = cmp (installKey left) (installKey right) := by
    unfold compareNodes installKey
    rw [cmp_toLex,cmp_toLex,cmp_toLex,cmp_toLex,hs]
    congr!
  rw [hc,ne_eq,cmp_eq_gt_iff,not_lt]

/-- Both are nodes, and the first has the smaller key. -/
def InstallsBefore (nodes : Nodes) (a b : FeatureInstallIdentity) : Prop :=
  ∃ left right, nodes.get? a = some left ∧ nodes.get? b = some right ∧
    installKey left < installKey right

/-- The priority that the last matching override entry gives. -/
def lastOverride (overrides : List Text) (node : Node) : ℕ :=
  match (overrides.zipIdx.filter fun entry => overrideMatches entry.1 node).getLast? with
  | some entry => overrides.length - entry.2
  | none => 0

def installPriority (overrides : List Text) (nodes : Nodes) (id : FeatureInstallIdentity) : ℕ :=
  ((nodes.get? id).map (lastOverride overrides)).getD 0

theorem overridePriority_eq {ovs : List Text} {node : Node} (h : node.priority = 0) :
    overridePriority ovs.length ovs.zipIdx node = lastOverride ovs node := by
  unfold overridePriority lastOverride
  generalize ovs.length = count
  rw [h]
  induction ovs.zipIdx using reverseRecOn with
  | nil => rfl
  | append_singleton es e ih =>
    rw [foldl_append,filter_append,getLast?_append]
    by_cases hm : overrideMatches e.1 node = true
    · simp [hm]
    · simpa [hm] using ih

theorem le_maxPriority {ready : List (FeatureInstallIdentity × Node)}
    {e : FeatureInstallIdentity × Node} (h : e ∈ ready) :
    e.2.priority ≤ maxPriority ready := by
  induction ready with
  | nil => cases h
  | cons fst xs ih =>
    rcases mem_cons.mp h with rfl | hr
    · exact le_max_left _ _
    · exact (ih hr).trans (le_max_right _ _)

section
variable {nodes ns : Nodes} {s : Rounds} {id : FeatureInstallIdentity}

theorem ready_iff (hs : RoundInv ns s) : Ready (· ∈ ns.keys) (Edge ns) (identities s.output) id ↔
      ∃ n, (id, n) ∈ readyEntries s := by
  constructor
  · rintro ⟨hw,hf,hme⟩
    obtain ⟨n,hn⟩ := mem_keys.mp ((hs.cover id hw).resolve_left hf)
    refine ⟨n,mem_filter.mpr ⟨s.nodes.mem_entries.mpr hn,?_⟩⟩
    refine OrderedSet.isSubset_iff.mpr fun b hb => (hs.installed b).mpr ?_
    exact hme b ⟨n,hs.remaining id n hn,hb⟩
  · rintro ⟨n,hr⟩
    obtain ⟨hm,hsu⟩ := mem_filter.mp hr
    have hn := s.nodes.mem_entries.mp hm
    refine ⟨mem_keys.mpr ⟨n,hs.remaining id n hn⟩,fun ho => hs.fresh id ho (mem_keys.mpr ⟨n,hn⟩),?_⟩
    rintro b ⟨n',hn',hb⟩
    rw [hs.remaining id n hn,Option.some.injEq] at hn'
    exact (hs.installed b).mp (OrderedSet.isSubset_iff.mp hsu b (hn' ▸ hb))

/-- A round installs the ready Features of the highest priority. -/
theorem mem_round (hs : RoundInv ns s) : id ∈ (roundOrder (readyEntries s)).map Prod.fst ↔
      Ready (· ∈ ns.keys) (Edge ns) (identities s.output) id ∧
        ∀ b, Ready (· ∈ ns.keys) (Edge ns) (identities s.output) b →
          ((ns.get? b).map Node.priority).getD 0 ≤ ((ns.get? id).map Node.priority).getD 0 := by
  have hp : ∀ b n, (b, n) ∈ readyEntries s →
      ((ns.get? b).map Node.priority).getD 0 = n.priority := by
    intro b n hr
    rw [hs.remaining b n (s.nodes.mem_entries.mp (mem_of_mem_filter hr))]
    rfl
  simp only [ready_iff hs]
  constructor
  · intro hid
    obtain ⟨⟨_,n⟩,he,rfl⟩ := mem_map.mp hid
    obtain ⟨hr,hm⟩ := mem_filter.mp ((roundOrder_perm _).mem_iff.mp he)
    refine ⟨⟨n,hr⟩,?_⟩
    rintro b ⟨o,ho⟩
    rw [hp _ _ hr,hp _ _ ho,of_decide_eq_true hm]
    exact le_maxPriority ho
  · rintro ⟨⟨n,hr⟩,hm⟩
    obtain ⟨best,hb,ha⟩ := maxPriority_attained (ne_nil_of_mem hr)
    have hle := hm best.1 ⟨best.2,hb⟩
    rw [hp _ _ hr,hp _ _ hb,ha] at hle
    refine mem_map.mpr ⟨(id, n),(roundOrder_perm _).mem_iff.mpr ?_,rfl⟩
    exact mem_filter.mpr ⟨hr,decide_eq_true (le_antisymm (le_maxPriority hr) hle)⟩

/-- Different identities have different keys, so the sorted entries increase strictly. -/
theorem pairwise_round (hs : RoundInv ns s)
    (hi : ∀ id n, ns.get? id = some n → n.package.identity = id) :
    ((roundOrder (readyEntries s)).map Prod.fst).Pairwise (InstallsBefore ns) := by
  have hn : ∀ e ∈ roundOrder (readyEntries s), ns.get? e.1 = some e.2 :=
    fun e he => hs.remaining _ _ (mem_roundOrder he).1
  have hso : (roundOrder (readyEntries s)).Pairwise
      fun left right => installKey left.2 ≤ installKey right.2 := by
    have ht : Std.Total fun left right : FeatureInstallIdentity × Node =>
        compareNodes left.2 right.2 ≠ .gt :=
      ⟨fun a b => by simpa only [compareNodes_ne_gt] using le_total _ _⟩
    have htr : IsTrans _ fun left right : FeatureInstallIdentity × Node =>
        compareNodes left.2 right.2 ≠ .gt :=
      ⟨fun a b c => by simpa only [compareNodes_ne_gt] using le_trans⟩
    exact (pairwise_insertionSort _ _).imp compareNodes_ne_gt.mp
  have hno := roundOrder_nodup s
  rw [List.Nodup,pairwise_map] at hno
  rw [pairwise_map]
  refine (hso.and hno).imp_of_mem ?_
  rintro left right hl hr ⟨hle,hne⟩
  refine ⟨left.2,right.2,hn left hl,hn right hr,lt_of_le_of_ne hle fun hk => hne ?_⟩
  have hsa : left.2.package.identity = right.2.package.identity :=
    congrArg (fun key => (ofLex (ofLex (ofLex (ofLex key).2).2).2).2) hk
  rw [← hi _ _ (hn left hl),← hi _ _ (hn right hr),hsa]

end

theorem roundSort_inRounds {ns : Nodes} {p : ResolvedFeatures}
    (hi : ∀ id n, ns.get? id = some n → n.package.identity = id)
    (h : roundSort ns = .ok p) :
    InRounds (· ∈ ns.keys) (Edge ns) (fun id => ((ns.get? id).map Node.priority).getD 0)
      (InstallsBefore ns) [] (identities p.installationOrder) := by
  have hru := rounds.run_induction (P := fun s r => RoundInv ns s → r = .ok p → ∃ xs,
      identities p.installationOrder = identities s.output++xs ∧
      InRounds (· ∈ ns.keys) (Edge ns)
        (fun id => ((ns.get? id).map Node.priority).getD 0) (InstallsBefore ns)
        (identities s.output) xs)
    ?_ ?_ ⟨ns,.empty,[]⟩ (roundInv_start ns) h
  · obtain ⟨xs,hr,hro⟩ := hru
    rw [hr]
    exact hro
  · rintro s r hd hs rfl
    change roundStep s = .inr (.ok p) at hd
    unfold roundStep at hd
    split_ifs at hd with he hre
    · obtain rfl := Except.ok.inj (Sum.inr.inj hd)
      refine ⟨[],(append_nil _).symm,.done fun id hid => ?_⟩
      refine (hs.cover id hid).resolve_right ?_
      simp [OrderedMap.keys,isEmpty_iff.mp he]
    · cases hd
  · intro s t hn ih hs hok
    obtain ⟨xs,hr,hro⟩ := ih (roundStep_inv hs hn) hok
    obtain ⟨hre,rfl⟩ := roundStep_cases hn
    rw [identities_foldl_install] at hr hro
    refine ⟨(roundOrder (readyEntries s)).map Prod.fst++xs,by
      rw [hr,append_assoc],.round ?_ (fun id => mem_round hs)
      (pairwise_round hs hi) hro⟩
    rw [ne_eq,map_eq_nil_iff]
    exact roundOrder_ne_nil hre

/-- The installation order is the one list that comes of repeating the round: install the Features
that are left, whose declared dependencies are installed and whose override priority is maximal
among these, ordered by their keys. -/
theorem installationOrder_iff (urls : UrlCrate) (requests : List FeatureRequest)
    (packages : FeatureCatalog) (overrides : List Text) (plan : ResolvedFeatures)
    (h : resolveFeatures urls requests packages overrides = .ok plan) :
    ∃ nodes, (expansion packages).run ⟨rootRequests requests,.empty⟩ = .ok nodes ∧
      ∀ order, InRounds (· ∈ nodes.keys) (Declares urls packages nodes)
        (installPriority overrides nodes) (InstallsBefore nodes) [] order ↔
          order = identities plan.installationOrder := by
  obtain ⟨nodes,he,res,hre,hs⟩ := resolveFeatures_eq_ok.mp h
  have hd := expansion_described he
  have hno := resolved_eq hre
  have hro := roundSort_inRounds ?_ hs
  · have hp : (fun id => ((res.get? id).map Node.priority).getD 0) =
        installPriority overrides nodes := by
      funext id
      rw [installPriority,hno,get?_mapValues,Option.map_map]
      cases hn : nodes.get? id with
      | none => rfl
      | some n => exact overridePriority_eq (hd.stands id n hn).priority
    have hb : InstallsBefore res = InstallsBefore nodes := by
      funext a b
      unfold InstallsBefore
      rw [hno,get?_mapValues,get?_mapValues]
      cases nodes.get? a <;> cases nodes.get? b <;> simp [installKey]
    have hk : res.keys = nodes.keys := by rw [hno,keys_mapValues]
    rw [hp,hb,hk,edge_eq_declares hd hre] at hro
    refine ⟨nodes,he,fun order => ⟨fun ho => ?_,fun ho => ho ▸ hro⟩⟩
    refine InRounds.unique ?_ ho hro
    rintro a b ⟨left,right,hl,hr,hlt⟩ ⟨right',left',hr',hl',hlt'⟩
    rw [hl,Option.some.injEq] at hl'
    rw [hr,Option.some.injEq] at hr'
    exact lt_asymm hlt (hl' ▸ hr' ▸ hlt')
  · intro id n hn
    rw [hno,get?_mapValues] at hn
    obtain ⟨bef,hb,rfl⟩ := Option.map_eq_some_iff.mp hn
    exact (hd.stands id bef hb).identity

theorem installationOrder_iff_sample : ∃ nodes, ∀ order,
    InRounds (· ∈ nodes.keys) (Declares noUrls sampleCatalog nodes)
      (installPriority ["./b"] nodes) (InstallsBefore nodes) [] order ↔
        order = [.localPath "./a",.localPath "./b",.localPath "./c"] := by
  obtain ⟨p,hp,hi⟩ := exists_ok_and
    (x := resolveFeatures noUrls sampleRequests sampleCatalog ["./b"])
    (P := fun p => identities p.installationOrder =
      [.localPath "./a",.localPath "./b",.localPath "./c"])
    (by decide +kernel) fun _ _ h => h
  obtain ⟨nodes,-,h⟩ := installationOrder_iff _ _ _ _ p hp
  exact ⟨nodes,hi ▸ h⟩

end Cdenv.FeatureResolution
