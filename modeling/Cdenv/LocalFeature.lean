import Cdenv.BoundedLoop
import Cdenv.Fallible
import Cdenv.FeatureModel
import Cdenv.FileTree
import Cdenv.UniqueReading
import Mathlib.Data.List.Sort

/-!
# Local Features and the hash of their trees

A local Feature is a directory of the checkout. Its tree is scanned first. Its metadata is read,
and the tree is then fed to the hash, entry by entry in name order: a header and, for a file, its
content, which is written without its length.
-/
namespace Cdenv.LocalFeature
open Fallible UniqueReading

def slash : UInt8 := 47

/-- What stands under a path. A link or a special file is `other`. -/
inductive LocalTree where
  | file (content : Bytes)
  | directory (entries : List (Bytes × LocalTree))
  | other

namespace LocalTree

def node : LocalTree → FileNode Bytes
  | .file content => .file content
  | .directory _ => .directory
  | .other => .other

def find : List Bytes → LocalTree → Option (FileNode Bytes)
  | [], tree => some tree.node
  | name::rest, .directory entries => (entries.lookup name).bind (find rest)
  | _::_, _ => none

/-- The names of a directory are different, not empty and without a slash. -/
inductive WellFormed : LocalTree → Prop
  | file (content : Bytes) : WellFormed (.file content)
  | other : WellFormed .other
  | directory {entries : List (Bytes × LocalTree)} (distinct : (entries.map Prod.fst).Nodup)
      (names : ∀ entry ∈ entries, entry.1 ≠ [] ∧ slash ∉ entry.1)
      (below : ∀ entry ∈ entries, WellFormed entry.2) : WellFormed (.directory entries)

inductive Regular : LocalTree → Prop
  | file (content : Bytes) : Regular (.file content)
  | directory {entries : List (Bytes × LocalTree)}
      (below : ∀ entry ∈ entries, Regular entry.2) : Regular (.directory entries)

end LocalTree

def relativeBytes (path : List Bytes) : Bytes := [slash].intercalate path

/-- What the configured path names, and whether it is inside the base directory. No path is
longer than an allocation can be. -/
structure LocalSource where
  contained : Bool
  root : LocalTree
  wellFormed : root.WellFormed
  bounded : ∀ path node, root.find path = some node → (relativeBytes path).length < 2^63

structure FeatureSourceLimits where
  (metadataBytes files extractedBytes : ℕ)

inductive LocalError where
  | localContainment (path : List Bytes)
  | limit (kind : String) (limit : ℕ)
  | metadata (path : List Bytes)
  | metadataJson (path : List Bytes)

structure Scan where
  pending : List (List Bytes × List (Bytes × LocalTree))
  (count bytes : ℕ)

/-- One entry; directories wait. -/
def scanEntry (limits : FeatureSourceLimits) (directory : List Bytes) (s : Scan)
    (entry : Bytes × LocalTree) : Except LocalError Scan :=
  if limits.files < s.count+1 then .error (.limit "local files" limits.files)
  else
    match entry.2 with
    | .other => .error (.localContainment (directory++[entry.1]))
    | .directory entries =>
      .ok ⟨(directory++[entry.1], entries)::s.pending,s.count+1,s.bytes⟩
    | .file content =>
      -- A sum past the range of the counter is also past the limit.
      if limits.extractedBytes < s.bytes+content.length then
        .error (.limit "local bytes" limits.extractedBytes)
      else .ok ⟨s.pending,s.count+1,s.bytes+content.length⟩

def scanStep (limits : FeatureSourceLimits) (s : Scan) : Scan ⊕ Except LocalError Unit :=
  match s.pending with
  | [] => .inr (.ok ())
  | (directory, entries)::rest =>
    match entries.foldlM (scanEntry limits directory) { s with pending := rest } with
    | .error failure => .inr (.error failure)
    | .ok t => .inl t

mutual
def directories : LocalTree → ℕ
  | .directory entries => directoriesBelow entries+1
  | .file _ => 0
  | .other => 0

def directoriesBelow : List (Bytes × LocalTree) → ℕ
  | [] => 0
  | (_, tree)::rest => directories tree+directoriesBelow rest
end

def scanMeasure (s : Scan) : ℕ := (s.pending.map fun p => directoriesBelow p.2+1).sum

variable {lim : FeatureSourceLimits} {directory : List Bytes}

theorem scanEntry_cases {s t : Scan} {e : Bytes × LocalTree}
    (h : scanEntry lim directory s e = .ok t) :
    (∃ ct, e.2 = .file ct ∧ t.pending = s.pending) ∨ ∃ es, e.2 = .directory es ∧
        t.pending = (directory++[e.1], es)::s.pending := by
  unfold scanEntry at h
  split_ifs at h
  cases he : e.2 with
  | other =>
    rw [he] at h
    cases h
  | directory es =>
    rw [he] at h
    cases h
    exact .inr ⟨es,rfl,rfl⟩
  | file ct =>
    rw [he] at h
    dsimp only at h
    split_ifs at h
    cases h
    exact .inl ⟨ct,rfl,rfl⟩

theorem scanMeasure_foldlM {entries : List (Bytes × LocalTree)} {s t : Scan}
    (h : entries.foldlM (scanEntry lim directory) s = .ok t) :
    scanMeasure t ≤ scanMeasure s+directoriesBelow entries := by
  induction entries generalizing s with
  | nil =>
    rw [pure_eq_ok.mp h]
    omega
  | cons e xs ih =>
    obtain ⟨u,he,hr⟩ := bind_eq_ok.mp h
    have hb := ih hr
    obtain ⟨n,tr⟩ := e
    rcases scanEntry_cases he with ⟨ct,rfl,hp⟩ | ⟨entries,rfl,hp⟩
    · have hs : scanMeasure u = scanMeasure s := by rw [scanMeasure,hp,scanMeasure]
      rw [directoriesBelow,directories]
      omega
    · have hm : scanMeasure u = directoriesBelow entries+1+scanMeasure s := by
        rw [scanMeasure,hp,List.map_cons,List.sum_cons,scanMeasure]
      rw [directoriesBelow,directories]
      omega

theorem scanStep_cases {s t : Scan} (h : scanStep lim s = .inl t) :
    ∃ directory es xs, s.pending = (directory, es)::xs ∧
      es.foldlM (scanEntry lim directory) { s with pending := xs } = .ok t := by
  unfold scanStep at h
  cases hp : s.pending with
  | nil => simp [hp] at h
  | cons fst xs =>
    obtain ⟨directory,es⟩ := fst
    rw [hp] at h
    dsimp only at h
    cases hf : es.foldlM (scanEntry lim directory) { s with pending := xs } with
    | error e => simp [hf] at h
    | ok u =>
      rw [hf] at h
      cases h
      exact ⟨directory,es,xs,rfl,hf⟩

theorem scanStep_decreases (lim : FeatureSourceLimits) {s t : Scan}
    (h : scanStep lim s = .inl t) : scanMeasure t < scanMeasure s := by
  obtain ⟨directory,es,xs,hp,hf⟩ := scanStep_cases h
  have hb := scanMeasure_foldlM hf
  have hpo : scanMeasure s = directoriesBelow es+1 + scanMeasure { s with pending := xs } := by
    rw [scanMeasure,hp,List.map_cons,List.sum_cons,scanMeasure]
  omega

def scan (limits : FeatureSourceLimits) : Loop Scan (Except LocalError Unit) where
  step := scanStep limits
  measure := scanMeasure
  decreases := scanStep_decreases limits

/-- Only regular files and directories, within the limits. -/
def validateLocalTree (limits : FeatureSourceLimits) (entries : List (Bytes × LocalTree)) :
    Except LocalError Unit :=
  (scan limits).run ⟨[([], entries)],0,0⟩

/-- The length of the path, the path and one byte for the kind. -/
def header (path : List Bytes) (isDir : Bool) : Bytes :=
  beBytes 8 (relativeBytes path).length++relativeBytes path++[if isDir then 1 else 0]

def byName {α : Type} (a b : Bytes × α) : Prop := a.1.map UInt8.toNat ≤ b.1.map UInt8.toNat

instance {α : Type} : DecidableRel (byName (α := α)) :=
  fun a b => inferInstanceAs (Decidable (a.1.map UInt8.toNat ≤ b.1.map UInt8.toNat))

mutual
/-- What one entry adds to the hash. Only scanned trees are hashed, so nothing is `other`. -/
def entryBytes (path : List Bytes) : LocalTree → Bytes
  | .file content => header path false++content
  | .directory entries =>
    header path true++((entriesBytes path entries).insertionSort byName).flatMap Prod.snd
  | .other => header path false

def entriesBytes (path : List Bytes) : List (Bytes × LocalTree) → List (Bytes × Bytes)
  | [] => []
  | (name, tree)::rest => (name, entryBytes (path++[name]) tree)::entriesBytes path rest
end

def visit (entries : List (Bytes × LocalTree)) : Bytes :=
  ((entriesBytes [] entries).insertionSort byName).flatMap Prod.snd

def hashLocalTree (sha256Hex : Bytes → Text) (entries : List (Bytes × LocalTree)) : Text :=
  "sha256:"++sha256Hex (visit entries)

def metadataName : Bytes :=
  "devcontainer-feature.json".toList.map fun c => UInt8.ofNat c.toNat

def readFeatureMetadata (parseMetadata : Bytes → Option FeatureMetadata)
    (entries : List (Bytes × LocalTree)) (limit : ℕ) : Except LocalError FeatureMetadata :=
  match entries.lookup metadataName with
  | some (.file content) =>
    if limit < content.length then .error (.limit "Feature metadata bytes" limit)
    else orFail (parseMetadata content) (.metadataJson [metadataName])
  | _ => .error (.metadata [metadataName])

def resolveLocal (parseMetadata : Bytes → Option FeatureMetadata) (sha256Hex : Bytes → Text)
    (limits : FeatureSourceLimits) (reference : FeatureReference) (source : LocalSource) :
    Except LocalError FeaturePackage :=
  match source.contained, source.root with
  | true, .directory entries => do
    validateLocalTree limits entries
    let metadata ← readFeatureMetadata parseMetadata entries limits.metadataBytes
    .ok { reference, identity := .localPath reference.asStr, metadata, digest := none,
          integrity := some (hashLocalTree sha256Hex entries) }
  | _, _ => .error (.localContainment [])

end Cdenv.LocalFeature
