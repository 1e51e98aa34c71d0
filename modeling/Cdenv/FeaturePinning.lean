import Cdenv.Fallible
import Cdenv.FeatureModel
import Cdenv.FeatureRegistry

/-!
# References pinned by the digest of an index

A tag may name an index, from which the one Feature manifest is selected and fetched by its
digest. A pinned reference spells a digest instead of the tag, and that digest is compared with
the manifest that is used in the end, never with the index. So a reference that is pinned by the
digest of an index is fetched all the way and then refused.

A registry gives a request one answer, whatever was asked before it. The extraction of the
layer's archive and the reading of its metadata are a parameter that depends on the digest
under which the layer is cached.
-/
namespace Cdenv.FeatureRegistry
open TextScan Fallible Interaction Interaction.Program FeatureHttp List

section
variable (crate : RegistryCrate) (cache : BlobCache) (limits : FeatureSourceLimits)
variable (extract : Text → Except FeatureSourceError FeatureMetadata)

/-- The metadata, with the digests of the manifest and of the layer. -/
def resolvePackage (value : Text) : Fetch crate.toHttpCrate (FeatureMetadata × Text × Text) := do
  let (digest, integrity) ← resolveOci crate cache limits value
  let metadata ← .done (extract integrity)
  pure (metadata, digest, integrity)

variable (registry : Request crate.toHttpCrate → Option Response) (parsed : OciReference)

/-- The manifest under the selector, with its digest and media type, whatever token comes with
the request. -/
def ServesManifest (selector : Text) (chosen : Option Descriptor)
    (manifest : List UInt8 × Text × Text) : Prop :=
  ∀ token, ∃ next, answered registry (getManifest crate limits parsed selector token chosen) =
    .ok (manifest, next)

/-- The tag names an index with one Feature manifest, and the registry serves under each digest
the content with that digest: the index, the manifest and its layer. -/
structure ServesIndex (index manifest : List UInt8) (descriptor layer : Descriptor) : Prop where
  indexed : ∃ media, (media = ociIndex ∨ media = dockerList) ∧
    ∀ selector ∈ [parsed.selector,crate.digestBytes index],
      ServesManifest crate limits registry parsed selector none
        (index, crate.digestBytes index, media)
  selects : ∃ descriptors, crate.indexDocument index = .ok descriptors ∧
    selectManifest descriptors = .ok descriptor
  digest : crate.digestBytes manifest = descriptor.digest
  manifests : ∃ media, ServesManifest crate limits registry parsed descriptor.digest
    (some descriptor) (manifest, crate.digestBytes manifest, media)
  layers : ∃ layers, crate.manifestDocument manifest = .ok layers ∧ featureLayer layers = .ok layer
  fetched : ∀ token, answered registry (getLayer crate cache limits parsed layer token) = .ok ()

end

section
variable {crate : RegistryCrate} {cache : BlobCache} {limits : FeatureSourceLimits}
variable {extract : Text → Except FeatureSourceError FeatureMetadata}
variable {registry : Request crate.toHttpCrate → Option Response} {parsed : OciReference}
variable {index manifest : List UInt8} {descriptor layer : Descriptor} {metadata : FeatureMetadata}

theorem answered_done {α : Type} {result : Except FeatureSourceError α} :
    answered registry (.done result : Fetch crate.toHttpCrate α) = result := rfl

theorem answered_pure {α : Type} {a : α} :
    answered registry (pure a : Fetch crate.toHttpCrate α) = .ok a := rfl

theorem ok_bind {α β : Type} {a : α} {f : α → Except FeatureSourceError β} :
    (Except.ok a >>= f) = f a := rfl

/-- What a reference comes to whose selector names the index: the manifest that is used is the
one that the index selects. -/
theorem ServesIndex.resolve {v : Text} {pin : Option Text}
    (h : ServesIndex crate cache limits registry parsed index manifest descriptor layer)
    (he : extract layer.digest = .ok metadata)
    (hsc : pin.getD parsed.selector ∈ [parsed.selector,crate.digestBytes index])
    (hv : OciReference.parse v =
      .ok { parsed with selector := pin.getD parsed.selector, digest := pin }) :
    answered registry (resolvePackage crate cache limits extract v) = (match pin with
      | some ex => verifyDigest crate ex manifest
      | none => .ok ()) >>= fun _ => .ok (metadata, descriptor.digest, layer.digest) := by
  obtain ⟨media,hme,hi⟩ := h.indexed
  obtain ⟨descriptors,hd,hse⟩ := h.selects
  obtain ⟨k,hm⟩ := h.manifests
  obtain ⟨layers,hla,hl⟩ := h.layers
  obtain ⟨tk,hsr⟩ := hi _ hsc none
  obtain ⟨next,hc⟩ := hm tk
  -- The requests depend on the registry and the repository of the reference only.
  have hs : ∀ selector tk chosen, getManifest crate limits
      { parsed with selector := pin.getD parsed.selector, digest := pin } selector tk chosen =
        getManifest crate limits parsed selector tk chosen := fun _ _ _ => rfl
  have hf : answered registry (getLayer crate cache limits
      { parsed with selector := pin.getD parsed.selector, digest := pin } layer next) = .ok () :=
    h.fetched next
  have hsl : answered registry (getSelected crate limits
      { parsed with selector := pin.getD parsed.selector, digest := pin }) =
        .ok ((manifest, descriptor.digest), next) := by
    simp only [getSelected,hs,answered_bind,answered_done,hsr,ok_bind,if_pos hme,
      hd,orElse,hse,hc,h.digest]
    rfl
  simp only [resolvePackage,resolveOci,answered_bind,answered_done,hv,ok_bind,hsl]
  cases pin with
  | none =>
    simp only [answered_bind,answered_done,answered_pure,hla,orElse,ok_bind,hl,hf,he]
  | some ex =>
    simp only [answered_bind,answered_done]
    cases verifyDigest crate ex manifest with
    | error e => rfl
    | ok u =>
      simp only [answered_pure,hla,orElse,ok_bind,hl,hf,he]

/-- A tag that names an index resolves. Pinned by the digest of the index, the reference comes to
the same exactly if the index has the digest that it lists for its manifest. -/
theorem pinned_index_iff {value pinned : Text}
    (h : ServesIndex crate cache limits registry parsed index manifest descriptor layer)
    (hextract : extract layer.digest = .ok metadata)
    (hvalue : OciReference.parse value = .ok parsed) (htag : parsed.digest = none)
    (hpinned : OciReference.parse pinned = .ok { parsed with
      selector := crate.digestBytes index, digest := some (crate.digestBytes index) }) :
    answered registry (resolvePackage crate cache limits extract value) =
        .ok (metadata, crate.digestBytes manifest, layer.digest) ∧
      (answered registry (resolvePackage crate cache limits extract pinned) =
          .ok (metadata, crate.digestBytes manifest, layer.digest) ↔
        crate.digestBytes index = descriptor.digest) := by
  have hre := @ServesIndex.resolve _ _ _ _ _ _ _ _ _ _ _ value none h hextract
    mem_cons_self (hvalue.trans (by cases parsed; cases htag; rfl))
  have hr := @ServesIndex.resolve _ _ _ _ _ _ _ _ _ _ _ pinned
    (some (crate.digestBytes index)) h hextract (mem_cons_of_mem _ mem_cons_self) hpinned
  rw [hre,hr,h.digest]
  refine ⟨rfl,?_⟩
  unfold verifyDigest
  dsimp only
  rw [h.digest]
  split_ifs with hs
  · exact iff_of_true rfl hs.symm
  · exact iff_of_false nofun fun heq => hs heq.symm

end

section sample

def textUrls : HttpCrate where
  Url := Text
  parse := .ok
  username _ := []
  password _ := none
  hostStr _ := some "registry.example"
  fragment _ := none
  setHost url _ := some url
  toText := id
  scheme _ := "https"
  portOrKnownDefault _ := some 443
  join _ location := some location
  query url _ _ := url
  statusText := decimal

/-- The document of an index or of a manifest with one entry. -/
def document (key : String) (entry : Descriptor) : Bytes :=
  utf8 ("\x7b\""++key.toList++"\":[\x7b\"mediaType\":\""++entry.mediaType++"\",\"digest\":\"" ++
    entry.digest++"\",\"size\":"++decimal entry.size++"\x7d]\x7d")

def layerEntry : Descriptor := ⟨featureLayerGzip,"sha256:c58e5206279d75ad97e4f18cfbc5f6dc" ++
    "72ff4f5cbf8ae857401ba07293634ac2",640⟩

def manifestEntry : Descriptor := ⟨ociManifest,"sha256:fda5a58a5f527b855ad2fb8bb8a86091" ++
    "e76f2d7a22952a16d7ef4d7aa3cac489",170⟩

def pinManifest : Bytes := document "layers" layerEntry

def pinIndex : Bytes := document "manifests" manifestEntry

def indexDigest : Text :=
  "sha256:ff591c47327095cf304dd72d19525fbe" ++
    "c0f3bb0c05e1c968b7e0233fc0d8c2d9"

/-- The digests are those of the two documents. -/
def pinCrate : RegistryCrate where
  toHttpCrate := textUrls
  digestBytes bytes :=
    if bytes = pinIndex then indexDigest
    else if bytes = pinManifest then manifestEntry.digest else "sha256:"
  indexDocument bytes := if bytes = pinIndex then .ok [manifestEntry] else .error "no index"
  manifestDocument bytes := if bytes = pinManifest then .ok [layerEntry] else .error "no manifest"
  tokenDocument _ := .error "no token"

def heldLayer : BlobCache where
  verifyCached _ _ := .ok true
  store _ _ := .ok ()

def pinReference : OciReference := ⟨"registry.example","a","1",none⟩

def pinLimits : FeatureSourceLimits := ⟨0,1024,1024⟩

/-- The index under its tag and its digest, and the manifest that it lists. -/
def pinAnswer (url : Text) : Response :=
  let base := "https://registry.example/v2/a/manifests/".toList
  if url = base++"1".toList ∨ url = base++indexDigest then
    ⟨200,none,none,some ociIndex,none,[some pinIndex]⟩
  else if url = base++manifestEntry.digest then
    ⟨200,none,none,some ociManifest,none,[some pinManifest]⟩
  else ⟨404,none,none,none,none,[]⟩

def pinRegistry (request : Request pinCrate.toHttpCrate) : Option Response :=
  some (pinAnswer request.url)

set_option maxRecDepth 8000 in
theorem servesIndex_pinRegistry : ServesIndex pinCrate heldLayer pinLimits pinRegistry pinReference
    pinIndex pinManifest manifestEntry layerEntry where
  indexed := ⟨ociIndex,.inl rfl,forall_mem_cons.mpr ⟨fun tk => ⟨tk,rfl⟩,
    forall_mem_cons.mpr ⟨fun tk => ⟨tk,rfl⟩,nofun⟩⟩⟩
  selects := ⟨_,rfl,rfl⟩
  digest := rfl
  manifests := ⟨ociManifest,fun tk => ⟨tk,rfl⟩⟩
  layers := ⟨_,rfl,rfl⟩
  fetched _ := rfl

def pinExtract (_ : Text) : Except FeatureSourceError FeatureMetadata :=
  .ok ⟨[],[],.empty,.empty,[],{}⟩

def pinResolve (reference : Text) : Except FeatureSourceError (FeatureMetadata × Text × Text) :=
  answered pinRegistry (resolvePackage pinCrate heldLayer pinLimits pinExtract reference)

set_option maxRecDepth 8000 in
theorem pinned_index_iff_sample : pinResolve "registry.example/a:1" =
        .ok (⟨[],[],.empty,.empty,[],{}⟩, manifestEntry.digest, layerEntry.digest) ∧
      (pinResolve ("registry.example/a@"++indexDigest) =
          .ok (⟨[],[],.empty,.empty,[],{}⟩, manifestEntry.digest, layerEntry.digest) ↔
        indexDigest = manifestEntry.digest) :=
  pinned_index_iff servesIndex_pinRegistry rfl rfl rfl rfl

set_option maxRecDepth 8000 in
/-- By its tag the Feature resolves. Pinned by the digest of the index that the tag names it does
not, although everything is served. -/
theorem pinned_index_refused :
    ServesIndex pinCrate heldLayer pinLimits pinRegistry pinReference pinIndex pinManifest
        manifestEntry layerEntry ∧
      pinResolve "registry.example/a:1" =
        .ok (⟨[],[],.empty,.empty,[],{}⟩, manifestEntry.digest, layerEntry.digest) ∧
      pinResolve ("registry.example/a@"++indexDigest) =
        .error (.digest indexDigest manifestEntry.digest) :=
  ⟨servesIndex_pinRegistry,rfl,rfl⟩

end sample
end Cdenv.FeatureRegistry
