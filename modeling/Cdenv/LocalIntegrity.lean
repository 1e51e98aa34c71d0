import Cdenv.LocalFeature

/-!
# What the integrity of a local Feature says

The hash sees a tree as its list of records, a path with what stands there, in the order of the
walk. A header ends where it says and the content of a file does not, so the bytes of a following
header may as well be content. Two accepted trees of one integrity are the same tree exactly when
files under a common path have a common length.
-/
namespace Cdenv.LocalFeature
open TextScan Fallible UniqueReading List

/-- The root is regular if the directories still to be scanned are. -/
def Owes (root : List (Bytes × LocalTree)) (s : Scan) : Prop :=
  (∀ p ∈ s.pending, ∀ entry ∈ p.2, entry.2.Regular) → ∀ entry ∈ root, entry.2.Regular

variable {lim : FeatureSourceLimits} {entries : List (Bytes × LocalTree)}

theorem scanned_regular {dir : List Bytes} {s t : Scan}
    (h : entries.foldlM (scanEntry lim dir) s = .ok t)
    (hp : ∀ p ∈ t.pending, ∀ e ∈ p.2, e.2.Regular) :
    (∀ e ∈ entries, e.2.Regular) ∧ ∀ p ∈ s.pending, ∀ e ∈ p.2, e.2.Regular := by
  induction entries generalizing s with
  | nil =>
    rw [pure_eq_ok.mp h]
    exact ⟨fun _ he => absurd he not_mem_nil,hp⟩
  | cons e xs ih =>
    obtain ⟨u,he,hre⟩ := bind_eq_ok.mp h
    obtain ⟨hr,hb⟩ := ih hre
    rw [forall_mem_cons]
    rcases scanEntry_cases he with ⟨ct,hf,hu⟩ | ⟨entries,hd,hu⟩
    · rw [hu] at hb
      exact ⟨⟨hf ▸ .file ct,hr⟩,hb⟩
    · rw [hu,forall_mem_cons] at hb
      exact ⟨⟨hd ▸ .directory hb.1,hr⟩,hb.2⟩

theorem scanStep_owes {root : List (Bytes × LocalTree)} {s t : Scan} (hs : Owes root s)
    (h : scanStep lim s = .inl t) : Owes root t := by
  obtain ⟨dir,entries,xs,hp,hf⟩ := scanStep_cases h
  intro ht
  obtain ⟨he,hr⟩ := scanned_regular hf ht
  apply hs
  rw [hp,forall_mem_cons]
  exact ⟨he,hr⟩

theorem validateLocalTree_regular (h : validateLocalTree lim entries = .ok ()) :
    LocalTree.Regular (.directory entries) := by
  have hst : Owes entries ⟨[([], entries)],0,0⟩ := by
    intro hpe
    exact hpe _ mem_cons_self
  have hr := (scan lim).run_invariant (I := Owes entries)
    (Q := fun r => r = .ok () → ∀ e ∈ entries, e.2.Regular)
    (fun s t hs ht => scanStep_owes hs ht) ?_ hst
  · exact .directory (hr h)
  · intro s r hs hd hok
    change scanStep lim s = .inr r at hd
    unfold scanStep at hd
    split at hd
    · next hn =>
      apply hs
      rw [hn]
      exact fun _ hp => absurd hp not_mem_nil
    · split at hd
      · cases hd
        cases hok
      · cases hd

theorem resolveLocal_eq_ok {parseMetadata : Bytes → Option FeatureMetadata}
    {sha256Hex : Bytes → Text} {ref : FeatureReference} {src : LocalSource}
    {pkg : FeaturePackage}
    (h : resolveLocal parseMetadata sha256Hex lim ref src = .ok pkg) :
    ∃ entries, src.root = .directory entries ∧ src.root.Regular ∧
      pkg.integrity = some (hashLocalTree sha256Hex entries) := by
  unfold resolveLocal at h
  split at h
  · next entries _ hr =>
    obtain ⟨⟨⟩,hv,h⟩ := bind_eq_ok.mp h
    obtain ⟨md,-,h⟩ := bind_eq_ok.mp h
    cases h
    exact ⟨entries,hr,hr ▸ validateLocalTree_regular hv,rfl⟩
  · cases h

abbrev Record := List Bytes × FileNode Bytes

def isDir : FileNode Bytes → Bool
  | .directory => true
  | _ => false

def Record.head (r : Record) : Bytes := header r.1 (isDir r.2)

def Record.body (r : Record) : Bytes :=
  match r.2 with
  | .file content => content
  | _ => []

mutual
def records (path : List Bytes) : LocalTree → List Record
  | .file content => [(path, .file content)]
  | .directory entries => (path, .directory) ::
      ((entryRecords path entries).insertionSort byName).flatMap Prod.snd
  | .other => [(path, .other)]

def entryRecords (path : List Bytes) : List (Bytes × LocalTree) → List (Bytes × List Record)
  | [] => []
  | (name, tree)::rest => (name, records (path++[name]) tree)::entryRecords path rest
end

def rootRecords (entries : List (Bytes × LocalTree)) : List Record :=
  ((entryRecords [] entries).insertionSort byName).flatMap Prod.snd

theorem flatMap_sorted (l : List (Bytes × List Record)) :
    ((l.map fun e => (e.1, write Record.head Record.body e.2)).insertionSort byName).flatMap
      Prod.snd =
      write Record.head Record.body ((l.insertionSort byName).flatMap Prod.snd) := by
  have hs := map_insertionSort (r := byName) (s := byName)
    (fun e : Bytes × List Record => (e.1, write Record.head Record.body e.2)) l
    fun _ _ _ _ => Iff.rfl
  rw [← hs,flatMap_map]
  unfold write
  rw [flatMap_assoc]

mutual
theorem entryBytes_eq (path : List Bytes) : (tree : LocalTree) →
    entryBytes path tree = write Record.head Record.body (records path tree)
  | .file ct => by
      simp [entryBytes,records,write,Record.head,Record.body,isDir]
  | .directory entries => by
      rw [entryBytes,entriesBytes_eq path entries,flatMap_sorted,records]
      simp [write,Record.head,Record.body,isDir]
  | .other => by
      simp [entryBytes,records,write,Record.head,Record.body,isDir]

theorem entriesBytes_eq (path : List Bytes) : (entries : List (Bytes × LocalTree)) →
    entriesBytes path entries =
      (entryRecords path entries).map fun e => (e.1, write Record.head Record.body e.2)
  | [] => rfl
  | (name, tree)::rest => by
      rw [entriesBytes,entryRecords,map_cons,entryBytes_eq (path++[name]) tree,
        entriesBytes_eq path rest]
end

theorem visit_eq (entries : List (Bytes × LocalTree)) :
    visit entries = write Record.head Record.body (rootRecords entries) := by
  unfold visit rootRecords
  rw [entriesBytes_eq,flatMap_sorted]

theorem entryRecords_eq (path : List Bytes) (entries : List (Bytes × LocalTree)) :
    entryRecords path entries = entries.map fun e => (e.1, records (path++[e.1]) e.2) := by
  induction entries with
  | nil => rfl
  | cons en xs ih =>
    obtain ⟨n,tree⟩ := en
    rw [entryRecords,ih,map_cons]

variable {path : List Bytes} {r : Record}

theorem mem_sortedRecords :
    r ∈ ((entryRecords path entries).insertionSort byName).flatMap Prod.snd ↔
      ∃ e ∈ entries, r ∈ records (path++[e.1]) e.2 := by
  simp only [mem_flatMap,mem_insertionSort,entryRecords_eq,mem_map]
  constructor
  · rintro ⟨_,⟨e,he,rfl⟩,hr⟩
    exact ⟨e,he,hr⟩
  · rintro ⟨e,he,hr⟩
    exact ⟨_,⟨e,he,rfl⟩,hr⟩

variable {tree : LocalTree}

theorem lookup_eq_some (hd : (entries.map Prod.fst).Nodup) {n : Bytes} :
    entries.lookup n = some tree ↔ (n, tree) ∈ entries := by
  induction entries with
  | nil => simp
  | cons e rest ih =>
    obtain ⟨hf,hr⟩ := nodup_cons.mp hd
    rw [lookup_cons,mem_cons]
    by_cases hn : n = e.1
    · have ha : (n, tree) ∉ rest := by
        intro hm
        apply hf
        rw [← hn]
        exact mem_map_of_mem (f := Prod.fst) hm
      rw [hn] at ha ⊢
      rw [beq_self_eq_true]
      rw [Option.some.injEq]
      simp [ha,Prod.ext_iff,eq_comm]
    · have hb := beq_eq_false_iff_ne.mpr hn
      simp [hb,hn,ih hr,Prod.ext_iff]

/-- A tree without entries has only its own record. -/
theorem mem_leaf (tree : LocalTree) (hl : ∀ n xs, tree.find (n::xs) = none) :
    r ∈ [(path, tree.node)] ↔ ∃ xs, r.1 = path++xs ∧ tree.find xs = some r.2 := by
  rw [mem_singleton]
  constructor
  · rintro rfl
    exact ⟨[],(append_nil _).symm,rfl⟩
  · rintro ⟨xs,hp,hf⟩
    cases xs with
    | nil =>
      rw [append_nil] at hp
      exact Prod.ext hp (Option.some.inj hf).symm
    | cons n xs =>
      rw [hl] at hf
      cases hf

/-- The records are what the tree has at its paths. -/
theorem mem_records (h : tree.WellFormed) :
    r ∈ records path tree ↔ ∃ xs, r.1 = path++xs ∧ tree.find xs = some r.2 := by
  induction h generalizing path with
  | file ct => exact mem_leaf (.file ct) fun _ _ => rfl
  | other => exact mem_leaf .other fun _ _ => rfl
  | @directory entries distinct ns below ih =>
    rw [records,mem_cons,mem_sortedRecords]
    constructor
    · rintro (rfl | ⟨e,he,hr⟩)
      · exact ⟨[],(append_nil _).symm,rfl⟩
      · obtain ⟨xs,hp,hf⟩ := (ih e he).mp hr
        refine ⟨e.1::xs,by rw [hp,append_assoc,singleton_append],?_⟩
        rw [LocalTree.find,(lookup_eq_some distinct).mpr he,Option.bind_some]
        exact hf
    · rintro ⟨xs,hp,hf⟩
      cases xs with
      | nil =>
        left
        rw [append_nil] at hp
        exact Prod.ext hp (Option.some.inj hf).symm
      | cons n xs =>
        right
        rw [LocalTree.find,Option.bind_eq_some_iff] at hf
        obtain ⟨tree,hl,hf⟩ := hf
        have he := (lookup_eq_some distinct).mp hl
        refine ⟨(n, tree),he,(ih _ he).mpr ⟨xs,?_,hf⟩⟩
        rw [hp,append_assoc,singleton_append]

theorem mem_rootRecords (h : LocalTree.WellFormed (.directory entries)) :
    r ∈ rootRecords entries ↔ r.1 ≠ [] ∧ (LocalTree.directory entries).find r.1 = some r.2 := by
  unfold rootRecords
  cases h with
  | directory distinct ns below =>
    rw [mem_sortedRecords]
    constructor
    · rintro ⟨e,he,hr⟩
      obtain ⟨xs,hp,hf⟩ := (mem_records (below e he)).mp hr
      rw [nil_append,singleton_append] at hp
      rw [hp]
      refine ⟨cons_ne_nil _ _,?_⟩
      rw [LocalTree.find,(lookup_eq_some distinct).mpr he,Option.bind_some]
      exact hf
    · rintro ⟨hne,hf⟩
      obtain ⟨n,xs,hp⟩ := exists_cons_of_ne_nil hne
      rw [hp,LocalTree.find,Option.bind_eq_some_iff] at hf
      obtain ⟨tree,hl,hf⟩ := hf
      have he := (lookup_eq_some distinct).mp hl
      exact ⟨(n, tree),he,(mem_records (below _ he)).mpr ⟨xs,hp,hf⟩⟩

variable {node : FileNode Bytes}

theorem names_of_find (h : tree.WellFormed) (hf : tree.find path = some node) :
    ∀ name ∈ path, slash ∉ name := by
  induction path generalizing tree with
  | nil => exact fun _ hn => absurd hn not_mem_nil
  | cons name xs ih =>
    cases h with
    | file content | other => cases hf
    | directory distinct ns below =>
      rw [LocalTree.find,Option.bind_eq_some_iff] at hf
      obtain ⟨tree,hl,hf⟩ := hf
      have he := (lookup_eq_some distinct).mp hl
      rw [forall_mem_cons]
      exact ⟨(ns _ he).2,ih (below _ he) hf⟩

theorem relativeBytes_inj {path' : List Bytes} (hne : path ≠ []) (hne' : path' ≠ [])
    (h : ∀ n ∈ path, slash ∉ n) (h' : ∀ n ∈ path', slash ∉ n)
    (heq : relativeBytes path = relativeBytes path') : path = path' := by
  have hs := congrArg (splitOn slash) heq
  unfold relativeBytes at hs
  rwa [splitOn_intercalate _ h hne,splitOn_intercalate _ h' hne'] at hs

theorem not_other_of_find (h : tree.Regular) (hf : tree.find path = some node) : node ≠ .other := by
  induction path generalizing tree with
  | nil =>
    cases h with
    | file ct | directory below =>
      rw [← Option.some.inj hf]
      exact nofun
  | cons n xs ih =>
    cases h with
    | file ct => cases hf
    | directory below =>
      rw [LocalTree.find,Option.bind_eq_some_iff] at hf
      obtain ⟨tree,hl,hf⟩ := hf
      obtain ⟨bef,aft,rfl,-⟩ := lookup_eq_some_iff.mp hl
      exact ih (below (n, tree) (mem_append_right _ mem_cons_self)) hf

def Short (r : Record) : Prop := (relativeBytes r.1).length < 2^63

theorem header_inj {path' : List Bytes} {d d' : Bool} {x y : Bytes}
    (h : (relativeBytes path).length < 2^63) (h' : (relativeBytes path').length < 2^63)
    (heq : header path d++x = header path' d'++y) :
    relativeBytes path = relativeBytes path' ∧ d = d' := by
  unfold header at heq
  simp only [append_assoc] at heq
  obtain ⟨hl,hr⟩ := append_inj heq (by rw [length_beBytes,length_beBytes])
  have hs := beBytes_inj (by omega) (by omega) hl
  obtain ⟨hp,hk⟩ := append_inj hr hs
  refine ⟨hp,?_⟩
  cases d <;> cases d' <;> simp_all

theorem selfDelimiting_head : SelfDelimiting Record.head Short := by
  intro r r' h h' x y heq
  obtain ⟨hp,hd⟩ := header_inj h h' heq
  unfold Record.head header
  rw [hp,hd]

def SameTree (first second : LocalTree) : Prop := ∀ path, first.find path = second.find path

/-- Files under a common path have a common length. -/
def SameLengths (first second : LocalTree) : Prop :=
  ∀ path content content', first.find path = some (.file content) →
    second.find path = some (.file content') → content.length = content'.length

theorem SameTree.sameLengths {fst second : LocalTree} (h : SameTree fst second) :
    SameLengths fst second := by
  intro path ct ct' hf hs
  rw [h path,hs] at hf
  cases hf
  rfl

theorem SameLengths.symm {first snd : LocalTree} (h : SameLengths first snd) :
    SameLengths snd first :=
  fun path ct ct' hf hs => (h path ct' ct hs hf).symm

theorem node_eq {path' : List Bytes} {node' : FileNode Bytes} (h : node ≠ .other)
    (h' : node' ≠ .other) (hd : isDir node = isDir node')
    (hb : Record.body (path, node) = Record.body (path', node')) : node = node' := by
  cases node <;> cases node' <;> simp_all [isDir,Record.body]

theorem length_body {fst snd : LocalTree} (hl : SameLengths fst snd)
    {node' : FileNode Bytes} (hf : fst.find path = some node)
    (hf' : snd.find path = some node') (h : node ≠ .other) (h' : node' ≠ .other)
    (hd : isDir node = isDir node') :
    (Record.body (path, node)).length = (Record.body (path, node')).length := by
  cases node with
  | other => exact absurd rfl h
  | directory =>
    cases node' with
    | other => exact absurd rfl h'
    | directory => rfl
    | file ct => cases hd
  | file ct =>
    cases node' with
    | other => exact absurd rfl h'
    | directory => cases hd
    | file ct' => exact hl path ct ct' hf hf'

section
variable {entries entries' : List (Bytes × LocalTree)}

/-- Records with one head stand under one path. -/
theorem path_eq_of_head (hw : LocalTree.WellFormed (.directory entries))
    (hw' : LocalTree.WellFormed (.directory entries')) {r' : Record}
    (hr : r ∈ rootRecords entries) (hr' : r' ∈ rootRecords entries') (hs : Short r)
    (hs' : Short r') (hh : r.head = r'.head) : r.1 = r'.1 ∧ isDir r.2 = isDir r'.2 := by
  obtain ⟨hne,hf⟩ := (mem_rootRecords hw).mp hr
  obtain ⟨hne',hf'⟩ := (mem_rootRecords hw').mp hr'
  obtain ⟨hb,hd⟩ := header_inj (x := []) (y := []) hs hs' (congrArg (· ++ []) hh)
  exact ⟨relativeBytes_inj hne hne' (names_of_find hw hf) (names_of_find hw' hf') hb,hd⟩

theorem find_of_visit_eq (hw : LocalTree.WellFormed (.directory entries))
    (hw' : LocalTree.WellFormed (.directory entries'))
    (hre : LocalTree.Regular (.directory entries))
    (hre' : LocalTree.Regular (.directory entries'))
    (hs : ∀ r ∈ rootRecords entries, Short r) (hs' : ∀ r ∈ rootRecords entries', Short r)
    (hl : SameLengths (.directory entries) (.directory entries'))
    (h : visit entries = visit entries') (hne : path ≠ [])
    (hf : (LocalTree.directory entries).find path = some node) :
    (LocalTree.directory entries').find path = some node := by
  rw [visit_eq,visit_eq] at h
  have hm := forall₂_of_write_eq selfDelimiting_head (fun r => by simp [Record.head,header])
    hs hs' ?_ h
  · have hr : (path, node) ∈ rootRecords entries := (mem_rootRecords hw).mpr ⟨hne,hf⟩
    obtain ⟨r',hr',hh,hb⟩ := forall₂_mem_left hm hr
    obtain ⟨hp,hd⟩ := path_eq_of_head hw hw' hr hr' (hs _ hr) (hs' _ hr') hh
    obtain ⟨-,hf'⟩ := (mem_rootRecords hw').mp hr'
    rw [← hp] at hf'
    rw [hf',node_eq (not_other_of_find hre hf) (not_other_of_find hre' hf') hd hb]
  · intro r hr r' hr' hh
    obtain ⟨hp,hd⟩ := path_eq_of_head hw hw' hr hr' (hs _ hr) (hs' _ hr') hh
    obtain ⟨-,hfi⟩ := (mem_rootRecords hw).mp hr
    obtain ⟨-,hfi'⟩ := (mem_rootRecords hw').mp hr'
    rw [← hp] at hfi'
    exact length_body hl hfi hfi' (not_other_of_find hre hfi) (not_other_of_find hre' hfi') hd

end

def hashInput : LocalTree → Bytes
  | .directory entries => visit entries
  | _ => []

/-- Two accepted local Features of one integrity are one tree exactly when the files that both
have under one path are of one length. -/
theorem integrity_sameTree_iff (parseMetadata : Bytes → Option FeatureMetadata)
    (sha256Hex : Bytes → Text) (limits : FeatureSourceLimits)
    (reference reference' : FeatureReference) (source source' : LocalSource)
    (package package' : FeaturePackage)
    (hsha : sha256Hex (hashInput source.root) = sha256Hex (hashInput source'.root) →
      hashInput source.root = hashInput source'.root)
    (haccepted : resolveLocal parseMetadata sha256Hex limits reference source = .ok package)
    (haccepted' : resolveLocal parseMetadata sha256Hex limits reference' source' = .ok package')
    (hintegrity : package.integrity = package'.integrity) :
    SameTree source.root source'.root ↔ SameLengths source.root source'.root := by
  refine ⟨SameTree.sameLengths,fun hl => ?_⟩
  obtain ⟨entries,hro,hre,hh⟩ := resolveLocal_eq_ok haccepted
  obtain ⟨entries',hro',hre',hh'⟩ := resolveLocal_eq_ok haccepted'
  have hw := source.wellFormed
  have hw' := source'.wellFormed
  have hb := source.bounded
  have hb' := source'.bounded
  rw [hro,hro'] at hsha hl ⊢
  rw [hro] at hw hre hb
  rw [hro'] at hw' hre' hb'
  have hv : visit entries = visit entries' := by
    apply hsha
    rw [hh,hh',Option.some.injEq] at hintegrity
    exact append_cancel_left hintegrity
  have hs : ∀ r ∈ rootRecords entries, Short r := fun r hr =>
    hb r.1 r.2 ((mem_rootRecords hw).mp hr).2
  have hs' : ∀ r ∈ rootRecords entries', Short r := fun r hr =>
    hb' r.1 r.2 ((mem_rootRecords hw').mp hr).2
  intro path
  by_cases hne : path = []
  · rw [hne]
    rfl
  · apply Option.ext
    intro node
    constructor
    · exact find_of_visit_eq hw hw' hre hre' hs hs' hl hv hne
    · exact find_of_visit_eq hw' hw hre' hre hs' hs hl.symm hv.symm hne

def filesTree (files : List (Bytes × Bytes)) : LocalTree :=
  .directory (files.map fun f => (f.1, .file f.2))

theorem find_filesTree {files : List (Bytes × Bytes)}
    (h : (filesTree files).find path = some node) :
    path = [] ∨ ∃ f ∈ files, path = [f.1] ∧ node = .file f.2 := by
  cases path with
  | nil => exact .inl rfl
  | cons n xs =>
    right
    rw [filesTree,LocalTree.find,Option.bind_eq_some_iff] at h
    obtain ⟨tree,hl,hfi⟩ := h
    obtain ⟨bef,aft,hs,-⟩ := lookup_eq_some_iff.mp hl
    have hm : (n, tree) ∈ files.map fun f => (f.1, LocalTree.file f.2) := by
      rw [hs]
      exact mem_append_right _ mem_cons_self
    obtain ⟨f,hf,heq⟩ := mem_map.mp hm
    cases heq
    cases xs with
    | nil => exact ⟨f,hf,rfl,(Option.some.inj hfi).symm⟩
    | cons next xs => cases hfi

def filesSource (files : List (Bytes × Bytes)) (hdistinct : (files.map Prod.fst).Nodup)
    (hnames : ∀ f ∈ files, f.1 ≠ [] ∧ slash ∉ f.1) (hshort : ∀ f ∈ files, f.1.length < 2^63) :
    LocalSource where
  contained := true
  root := filesTree files
  wellFormed := by
    refine .directory ?_ ?_ ?_
    · rw [List.map_map]
      exact hdistinct
    · exact List.forall_mem_map.mpr hnames
    · exact List.forall_mem_map.mpr fun f _ => .file f.2
  bounded := by
    intro path node hfind
    rcases find_filesTree hfind with rfl | ⟨f,hf,rfl,-⟩
    · decide
    · simpa [relativeBytes] using hshort f hf

def sampleMetadata : FeatureMetadata := { id := ['a'], version := ['1'] }

def metadataText : Bytes := utf8 "\x7b\"id\":\"a\",\"version\":\"1\"\x7d"

def sampleParse (content : Bytes) : Option FeatureMetadata :=
  if content = metadataText then some sampleMetadata else none

def sampleLimits : FeatureSourceLimits := ⟨64,16,64⟩

/-- Two files, listed in another order than that of their names. -/
def listedFiles : List (Bytes × Bytes) := [(metadataName, metadataText),([97], [0,7])]

def sortedFiles : List (Bytes × Bytes) := [([97], [0,7]),(metadataName, metadataText)]

def listedSource : LocalSource :=
  filesSource listedFiles (by decide) (by decide) (by decide)

def sortedSource : LocalSource :=
  filesSource sortedFiles (by decide) (by decide) (by decide)

theorem resolveLocal_files (files : List (Bytes × Bytes)) (src : LocalSource)
    (hc : src.contained = true) (hr : src.root = filesTree files)
    (hv : validateLocalTree sampleLimits (files.map fun f => (f.1, .file f.2)) = .ok ())
    (hm : readFeatureMetadata sampleParse
      (files.map fun f => (f.1, .file f.2)) sampleLimits.metadataBytes = .ok sampleMetadata)
    (sha256Hex : Bytes → Text) (ref : FeatureReference) :
    ∃ pkg, resolveLocal sampleParse sha256Hex sampleLimits ref src = .ok pkg ∧
      pkg.integrity = some ("sha256:"++sha256Hex (hashInput src.root)) := by
  refine ⟨⟨ref,.localPath ref.asStr,sampleMetadata,none,
    some ("sha256:"++sha256Hex (hashInput src.root))⟩,?_,rfl⟩
  unfold resolveLocal
  rw [hc,hr]
  unfold filesTree
  dsimp only
  rw [hv,hm]
  rfl

theorem integrity_listed : listedFiles ≠ sortedFiles ∧
    ∀ sha256Hex : Bytes → Text, ∃ package package',
    resolveLocal sampleParse sha256Hex sampleLimits (.localPath "./a") listedSource = .ok package ∧
    resolveLocal sampleParse sha256Hex sampleLimits (.localPath "./a") sortedSource =
      .ok package' ∧
    SameTree listedSource.root sortedSource.root := by
  refine ⟨by decide,fun sha256Hex => ?_⟩
  obtain ⟨package,ha,hi⟩ := resolveLocal_files listedFiles
    listedSource rfl rfl (by rfl) (by rfl) sha256Hex (.localPath "./a")
  obtain ⟨package',ha',hi'⟩ := resolveLocal_files sortedFiles
    sortedSource rfl rfl (by rfl) (by rfl) sha256Hex (.localPath "./a")
  have hin : hashInput listedSource.root = hashInput sortedSource.root := by decide +kernel
  refine ⟨package,package',ha,ha',?_⟩
  have heq : package.integrity = package'.integrity := by rw [hi,hi',hin]
  refine (integrity_sameTree_iff _ _ _ _ _ _ _ _ _ (fun _ => hin) ha ha' heq).mpr ?_
  intro path ct ct' hfi hs
  rcases find_filesTree hfi with rfl | ⟨f,hf,rfl,heq⟩
  · cases hfi
  · rcases find_filesTree hs with hn | ⟨g,hg,hp,heq'⟩
    · cases hn
    · have hfl : ∀ f ∈ listedFiles, ∀ g ∈ sortedFiles, f.1 = g.1 → f.2.length = g.2.length := by
        decide +kernel
      cases heq
      cases heq'
      exact hfl f hf g hg (head_eq_of_cons_eq hp)

/-- An empty file and another one after it. -/
def splitFiles : List (Bytes × Bytes) := [([97], []),([98], []),(metadataName, metadataText)]

/-- One file that has the header of the other for its content. -/
def joinedFiles : List (Bytes × Bytes) := 
  [([97], header [[98]] false),(metadataName, metadataText)]

def splitSource : LocalSource := filesSource splitFiles (by decide) (by decide) (by decide)

def joinedSource : LocalSource := filesSource joinedFiles (by decide) (by decide) (by decide)

/-- Whatever the hash, both have one integrity. -/
theorem integrity_embedded_header : ¬ SameTree splitSource.root joinedSource.root ∧
    ∀ sha256Hex : Bytes → Text, ∃ package package',
    resolveLocal sampleParse sha256Hex sampleLimits (.localPath "./a") splitSource = .ok package ∧
    resolveLocal sampleParse sha256Hex sampleLimits (.localPath "./a") joinedSource =
      .ok package' ∧
    package.integrity = package'.integrity := by
  refine ⟨fun hs => (by cases hs [[98]]),fun sha256Hex => ?_⟩
  obtain ⟨package,ha,hi⟩ := resolveLocal_files splitFiles
    splitSource rfl rfl (by rfl) (by rfl) sha256Hex (.localPath "./a")
  obtain ⟨package',ha',hi'⟩ := resolveLocal_files joinedFiles
    joinedSource rfl rfl (by rfl) (by rfl) sha256Hex (.localPath "./a")
  have hin : hashInput splitSource.root = hashInput joinedSource.root := by decide +kernel
  exact ⟨package,package',ha,ha',by rw [hi,hi',hin]⟩

end Cdenv.LocalFeature
