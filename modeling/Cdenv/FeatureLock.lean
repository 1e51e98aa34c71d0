import Cdenv.FeatureOrder
import Cdenv.JsonRecord

/-!
# The Feature lock

A lock is made from a finished resolution. Freezing is the way back. The lock is read from its
file, the requests are resolved again against the recorded references alone, and the new plan must
give the same lock.

A plan has one reference for an identity. A second reference of the same identity is reached but
not recorded, and the frozen resolution then misses its package.
-/
namespace Cdenv
open TextScan OrderedMap List

structure LockedFeature where
  (version resolved integrity : Text)
  options : FeatureOptions
  dependsOn : OrderedMap Text FeatureOptions
deriving DecidableEq

/-- The requests with their options as written, and one record for each Feature of the plan, under
the text of its reference. -/
structure FeatureLock where
  version : ℕ
  requested : OrderedMap Text FeatureOptions
  features : OrderedMap Text LockedFeature
deriving DecidableEq

def featureLockVersion : ℕ := 1

def validateLockIntegrity (value : Text) : Except FeatureError Unit :=
  (FeatureReference.validateSha256 value).mapError .invalidLock

def LockedFeature.new (version resolved integrity : Text) (options : FeatureOptions)
    (dependsOn : OrderedMap Text FeatureOptions) : Except FeatureError LockedFeature := do
  if version.isEmpty || resolved.isEmpty then
    .error (.invalidLock "lock version and resolution cannot be empty")
  else do
    validateLockIntegrity integrity
    .ok ⟨version,resolved,integrity,options,dependsOn⟩

namespace FeatureLock
open Fallible

/-- The digest-qualified reference, or the reference itself where there is no digest. -/
def resolvedReference (package : FeaturePackage) : Text :=
  match package.digest with
  | none => package.reference.asStr
  | some digest => FeatureReference.ociResourceName package.reference.asStr++ '@'::digest

def lockFeature (packages : FeatureCatalog) (feature : ResolvedFeature) :
    Except FeatureError (Text × LockedFeature) := do
  let package ← orFail (packages.get? feature.reference)
    (.invalidLock "resolved Feature is absent from its package catalog")
  let integrity ← orFail package.integrity
    (.invalidLock "resolved Feature has no content integrity")
  validateLockIntegrity integrity
  let record ← LockedFeature.new feature.metadata.version (resolvedReference package) integrity
    feature.options (.ofList (package.metadata.dependsOn.entries.map
      fun entry => (entry.1.asStr, entry.2)))
  .ok (feature.reference.asStr, record)

def requestedOptions (requests : List FeatureRequest) : OrderedMap Text FeatureOptions :=
  .ofList (requests.map fun request => (request.reference.asStr, request.options))

def fromResolution (requests : List FeatureRequest) (resolved : ResolvedFeatures)
    (packages : FeatureCatalog) : Except FeatureError FeatureLock := do
  let records ← resolved.installationOrder.mapM (lockFeature packages)
  .ok ⟨featureLockVersion,requestedOptions requests,.ofList records⟩

def validateRecord (record : LockedFeature) : Except FeatureError Unit :=
  if record.version.isEmpty || record.resolved.isEmpty then
    .error (.invalidLock "lock record has an empty version or resolution")
  else validateLockIntegrity record.integrity

def validateStructure (lock : FeatureLock) : Except FeatureError Unit :=
  if lock.version ≠ featureLockVersion then .error (.invalidLock "unsupported lockfile version")
  else lock.features.values.forM validateRecord

def validateFrozen (lock : FeatureLock) (requests : List FeatureRequest)
    (resolved : ResolvedFeatures) (packages : FeatureCatalog) : Except FeatureError Unit := do
  let current ← fromResolution requests resolved packages
  if lock = current then .ok () else .error .staleLock

/-- The text layer of the JSON library: indented writing, and reading of a whole document. -/
structure JsonCrate where
  toTextPretty : Json → Text
  fromText : Text → Option Json

def encodeValue : FeatureValue → Json
  | .boolean value => .bool value
  | .string value => .string value

def decodeValue : Json → Option FeatureValue
  | .bool value => some (.boolean value)
  | .string value => some (.string value)
  | _ => none

def encodeOptions : FeatureOptions → Json := JsonRecord.encodeMap encodeValue

def decodeOptions : Json → Option FeatureOptions := JsonRecord.decodeMap decodeValue

def recordFields : List Text :=
  ["version","resolved","integrity","options","dependsOn"].map String.toList

def encodeRecord (record : LockedFeature) : Json :=
  JsonRecord.encodeFields recordFields [.string record.version,.string record.resolved,
    .string record.integrity,encodeOptions record.options,
    JsonRecord.encodeMap encodeOptions record.dependsOn]

def decodeRecord (value : Json) : Option LockedFeature := do
  match ← JsonRecord.fields recordFields value with
  | [version,resolved,integrity,options,dependsOn] =>
    some ⟨← JsonRecord.decodeString version,← JsonRecord.decodeString resolved,
      ← JsonRecord.decodeString integrity,← decodeOptions options,
      ← JsonRecord.decodeMap decodeOptions dependsOn⟩
  | _ => none

def lockFields : List Text := ["version","requested","features"].map String.toList

def encode (lock : FeatureLock) : Json :=
  JsonRecord.encodeFields lockFields [JsonRecord.encodeUnsigned lock.version,
    JsonRecord.encodeMap encodeOptions lock.requested,
    JsonRecord.encodeMap encodeRecord lock.features]

def decode (value : Json) : Option FeatureLock := do
  match ← JsonRecord.fields lockFields value with
  | [version,requested,features] =>
    some ⟨← JsonRecord.decodeUnsigned 32 version,
      ← JsonRecord.decodeMap decodeOptions requested,
      ← JsonRecord.decodeMap decodeRecord features⟩
  | _ => none

def parse (json : JsonCrate) (bytes : Text) : Except FeatureError FeatureLock := do
  let lock ← orFail ((json.fromText bytes).bind decode)
    (.invalidLock "lockfile is not valid strict JSON")
  lock.validateStructure
  .ok lock

def toJsonBytes (json : JsonCrate) (lock : FeatureLock) : Except FeatureError Text := do
  lock.validateStructure
  .ok (json.toTextPretty lock.encode++['\n'])

theorem decodeValue_encodeValue (value : FeatureValue) :
    decodeValue (encodeValue value) = some value := by
  cases value <;> rfl

theorem decodeOptions_encodeOptions (options : FeatureOptions) :
    decodeOptions (encodeOptions options) = some options :=
  JsonRecord.decodeMap_encodeMap decodeValue_encodeValue options

theorem decodeRecord_encodeRecord (record : LockedFeature) :
    decodeRecord (encodeRecord record) = some record := by
  unfold decodeRecord encodeRecord
  rw [JsonRecord.fields_encodeFields (by decide) (by rfl)]
  dsimp only [Option.bind_eq_bind,Option.bind_some,JsonRecord.decodeString]
  rw [decodeOptions_encodeOptions,JsonRecord.decodeMap_encodeMap decodeOptions_encodeOptions]
  rfl

theorem decode_encode {lock : FeatureLock} (h : lock.version < 2^32) :
    decode lock.encode = some lock := by
  unfold decode encode
  rw [JsonRecord.fields_encodeFields (by decide) (by rfl)]
  dsimp only [Option.bind_eq_bind,Option.bind_some]
  rw [JsonRecord.decodeUnsigned_encodeUnsigned h,
    JsonRecord.decodeMap_encodeMap decodeOptions_encodeOptions,
    JsonRecord.decodeMap_encodeMap decodeRecord_encodeRecord]
  rfl

/-- A document of the lock, with the newline after it, is read as the value it was written from. -/
def JsonCrate.ReadsBack (json : JsonCrate) (value : Json) : Prop :=
  json.fromText (json.toTextPretty value++['\n']) = some value

variable {json : JsonCrate}

theorem parse_toJsonBytes {lock : FeatureLock} (hv : lock.validateStructure = .ok ())
    (hj : json.ReadsBack lock.encode) :
    ∃ bs, lock.toJsonBytes json = .ok bs ∧ parse json bs = .ok lock := by
  have hve : lock.version < 2^32 := by
    unfold validateStructure at hv
    split_ifs at hv with h
    rw [not_not.mp h]
    decide
  refine ⟨json.toTextPretty lock.encode++['\n'],?_,?_⟩
  · unfold toJsonBytes
    rw [hv]
    rfl
  · unfold parse
    rw [hj,Option.bind_some,decode_encode hve]
    change (lock.validateStructure >>= fun _ => Except.ok lock) = .ok lock
    rw [hv]
    rfl

theorem new_eq_ok {version res integrity : Text} {opts : FeatureOptions}
    {dependsOn : OrderedMap Text FeatureOptions} {rec : LockedFeature}
    (h : LockedFeature.new version res integrity opts dependsOn = .ok rec) :
    validateRecord rec = .ok () := by
  unfold LockedFeature.new at h
  split_ifs at h with he
  obtain ⟨⟨⟩,hi,hr⟩ := bind_eq_ok.mp h
  cases hr
  unfold validateRecord
  rw [if_neg he,hi]

theorem lockFeature_eq_ok {packages : FeatureCatalog} {ft : ResolvedFeature}
    {e : Text × LockedFeature} (h : lockFeature packages ft = .ok e) :
    e.1 = ft.reference.asStr ∧ validateRecord e.2 = .ok () := by
  obtain ⟨pkg,-,h⟩ := bind_eq_ok.mp h
  obtain ⟨integrity,-,h⟩ := bind_eq_ok.mp h
  obtain ⟨⟨⟩,-,h⟩ := bind_eq_ok.mp h
  obtain ⟨rec,hr,h⟩ := bind_eq_ok.mp h
  cases h
  exact ⟨rfl,new_eq_ok hr⟩

section
variable {requests : List FeatureRequest} {pl : ResolvedFeatures} {packages : FeatureCatalog}
  {lock : FeatureLock}

section

variable (h : fromResolution requests pl packages = .ok lock)
include h

theorem fromResolution_eq_ok : ∃ records, List.Forall₂ (fun ft e => lockFeature packages ft = .ok e)
        pl.installationOrder records ∧
      lock = ⟨featureLockVersion,requestedOptions requests,.ofList records⟩ := by
  obtain ⟨records,hr,hl⟩ := bind_eq_ok.mp h
  exact ⟨records,mapM_eq_ok.mp hr,(Except.ok.inj hl).symm⟩

theorem mem_features {text : Text} :
    text ∈ lock.features.keys ↔ ∃ f ∈ pl.installationOrder, f.reference.asStr = text := by
  obtain ⟨records,hr,rfl⟩ := fromResolution_eq_ok h
  rw [mem_keys_ofList,mem_map]
  constructor
  · rintro ⟨e,he,rfl⟩
    obtain ⟨f,hf,hl⟩ := forall₂_mem_right hr he
    exact ⟨f,hf,(lockFeature_eq_ok hl).1.symm⟩
  · rintro ⟨f,hf,rfl⟩
    obtain ⟨e,he,hl⟩ := forall₂_mem_left hr hf
    exact ⟨e,he,(lockFeature_eq_ok hl).1⟩

/-- A lock made from a resolution passes its own structure check. -/
theorem validateStructure_fromResolution : lock.validateStructure = .ok () := by
  obtain ⟨records,hre,rfl⟩ := fromResolution_eq_ok h
  unfold validateStructure
  rw [if_neg (not_not.mpr rfl),forM_eq_ok]
  intro rec hr
  obtain ⟨t,hg⟩ := mem_values.mp hr
  rcases mem_of_get?_foldl_insert hg with he | hm
  · simp at he
  · obtain ⟨f,-,hl⟩ := forall₂_mem_right hre hm
    exact (lockFeature_eq_ok hl).2

end

theorem fromResolution_congr {packages' : FeatureCatalog}
    (h : ∀ f ∈ pl.installationOrder, packages.get? f.reference = packages'.get? f.reference) :
    fromResolution requests pl packages = fromResolution requests pl packages' := by
  unfold fromResolution
  rw [mapM_congr (g := lockFeature packages')]
  intro f hf
  unfold lockFeature
  rw [h f hf]

end

/-- The catalog of the recorded references. -/
def recorded (lock : FeatureLock) (packages : FeatureCatalog) : FeatureCatalog :=
  packages.filterKeys fun r => lock.features.contains r.asStr

end FeatureLock

namespace FeatureResolution
open FeatureLock Fallible

section
variable {urls : UrlCrate} {packages pkgs' : FeatureCatalog} {requests : List FeatureRequest}
  {overrides : List Text}

theorem expandItem_congr {ns : Nodes} {item : Pending}
    (h : packages.get? item.reference = pkgs'.get? item.reference) :
    expandItem packages ns item = expandItem pkgs' ns item := by
  unfold expandItem
  rw [h]

section

variable (h : ∀ r o, Reached packages requests r o → packages.get? r = pkgs'.get? r)
include h

/-- Only the reached part of a catalog is read. -/
theorem expansion_congr : (expansion packages).run ⟨rootRequests requests,.empty⟩ =
      (expansion pkgs').run ⟨rootRequests requests,.empty⟩ := by
  refine (expansion packages).run_congr (expansion pkgs')
    (I := ReachInv packages requests) (fun s t hs ht => reachInv_step hs ht) ?_
    (reachInv_start packages requests)
  intro s hs
  change expandStep packages s = expandStep pkgs' s
  unfold expandStep
  cases hp : s.pending with
  | nil => rfl
  | cons x xs =>
    have hr := hs.pending x (hp ▸ mem_cons_self)
    dsimp only
    rw [expandItem_congr (h _ _ hr)]

theorem resolveFeatures_congr : resolveFeatures urls requests packages overrides =
      resolveFeatures urls requests pkgs' overrides := by
  unfold resolveFeatures
  rw [expansion_congr h]

end

variable {r : FeatureReference}

/-- What the requests reach in a part of the catalog that has all they reach there. -/
theorem reached_of_acceptable {kept : FeatureReference → Bool}
    (h : Acceptable (packages.filterKeys kept) requests) {o : FeatureOptions}
    (hre : Reached packages requests r o) :
    Reached (packages.filterKeys kept) requests r o ∧ kept r = true := by
  have hke : ∀ r o, Reached (packages.filterKeys kept) requests r o → kept r = true := by
    intro r o hr
    obtain ⟨pkg,eff,ha⟩ := h.found r o hr
    have hf := ha.found
    rw [get?_filterKeys] at hf
    split_ifs at hf with hk
    exact hk
  suffices hs : Reached (packages.filterKeys kept) requests r o from ⟨hs,hke r o hs⟩
  induction hre with
  | root hq => exact .root hq
  | step _ hp hd ih =>
    refine ih.step ?_ hd
    rw [get?_filterKeys,if_pos (hke _ _ ih)]
    exact hp

end

/-- Reached references of one identity are written with one text. -/
def OneText (packages : FeatureCatalog) (requests : List FeatureRequest) : Prop :=
  ∀ r o r' o' package package', Reached packages requests r o → Reached packages requests r' o' →
    packages.get? r = some package → packages.get? r' = some package' →
    package.identity = package'.identity → r.asStr = r'.asStr

/-- Packages of one identity have one content. -/
def OneContent (packages : FeatureCatalog) : Prop :=
  ∀ r r' package package', packages.get? r = some package → packages.get? r' = some package' →
    package.identity = package'.identity → package.metadata = package'.metadata ∧
      package.digest = package'.digest ∧ package.integrity = package'.integrity

/-- The lock is read back, and the frozen resolution gives the plan it was made from. -/
structure ResolvesFrozen (json : JsonCrate) (urls : UrlCrate) (requests : List FeatureRequest)
    (packages : FeatureCatalog) (overrides : List Text) (plan : ResolvedFeatures)
    (lock : FeatureLock) : Prop where
  reread : ∃ bytes, lock.toJsonBytes json = .ok bytes ∧ FeatureLock.parse json bytes = .ok lock
  resolves : resolveFeatures urls requests (lock.recorded packages) overrides = .ok plan
  frozen : lock.validateFrozen requests plan (lock.recorded packages) = .ok ()

section
variable {urls : UrlCrate} {packages : FeatureCatalog} {requests : List FeatureRequest}
  {overrides : List Text} {pl : ResolvedFeatures} {lock : FeatureLock}

theorem OneContent.coherent (h : OneContent packages) : Coherent packages :=
  fun r r' pkg pkg' hp hp' hi => (h r r' pkg pkg' hp hp' hi).1

/-- Where one identity has one text, every reached reference is recorded. -/
theorem recorded_get? (hc : Coherent packages) (hte : OneText packages requests)
    (hpl : resolveFeatures urls requests packages overrides = .ok pl)
    (hl : FeatureLock.fromResolution requests pl packages = .ok lock) {o : FeatureOptions}
    (hr : Reached packages requests r o) :
    packages.get? r = (lock.recorded packages).get? r := by
  obtain ⟨ns,-,hp⟩ := resolveFeatures_planned hpl
  obtain ⟨pkg,n,ha,hn⟩ := hp.described.processed hc hr
  have hin := hp.complete _ (mem_keys.mpr ⟨n,hn⟩)
  obtain ⟨f,hf,hi⟩ := mem_map.mp hin
  obtain ⟨⟨o',hre⟩,own,ho,how,-⟩ := hp.reached hf
  have ht := hte _ _ _ _ own pkg hre hr ho ha.found (how.trans hi)
  have hk : lock.features.contains r.asStr = true :=
    contains_iff.mpr ((FeatureLock.mem_features hl).mpr ⟨f,hf,ht⟩)
  rw [FeatureLock.recorded,get?_filterKeys,if_pos hk]

theorem OneText.resolvesFrozen (hc : Coherent packages) (ht : OneText packages requests)
    (hp : resolveFeatures urls requests packages overrides = .ok pl)
    (hl : FeatureLock.fromResolution requests pl packages = .ok lock)
    (hj : json.ReadsBack lock.encode) :
    ResolvesFrozen json urls requests packages overrides pl lock where
  reread := parse_toJsonBytes (validateStructure_fromResolution hl) hj
  resolves := by
    rw [← hp]
    exact (resolveFeatures_congr fun r o => recorded_get? hc ht hp hl).symm
  frozen := by
    have hs : FeatureLock.fromResolution requests pl (lock.recorded packages) = .ok lock := by
      rw [← hl]
      refine (fromResolution_congr fun f hf => ?_).symm
      obtain ⟨ns,-,hpl⟩ := resolveFeatures_planned hp
      obtain ⟨⟨o,hr⟩,-⟩ := hpl.reached hf
      exact recorded_get? hc ht hp hl hr
    unfold FeatureLock.validateFrozen
    rw [hs]
    exact if_pos rfl

/-- A frozen resolution finds every reached reference under its text. -/
theorem ResolvesFrozen.oneText (hc : Coherent packages) (hd : TextsDiffer packages requests)
    (hpn : resolveFeatures urls requests packages overrides = .ok pl)
    (hl : FeatureLock.fromResolution requests pl packages = .ok lock)
    (h : ResolvesFrozen json urls requests packages overrides pl lock) :
    OneText packages requests := by
  have hpa : Coherent (lock.recorded packages) := by
    intro r r' pkg pkg' hp hp'
    rw [FeatureLock.recorded,get?_filterKeys] at hp hp'
    split_ifs at hp hp'
    exact hc r r' pkg pkg' hp hp'
  obtain ⟨ns,he,-⟩ := resolveFeatures_eq_ok.mp h.resolves
  have ha := (expansion_ok_iff hpa).mp ⟨ns,he⟩
  obtain ⟨planned,-,hpl⟩ := resolveFeatures_planned hpn
  -- A reached reference is the one of a planned Feature, whose identity is its own.
  have hfe : ∀ r o pkg, Reached packages requests r o → packages.get? r = some pkg →
      ∃ f ∈ pl.installationOrder, f.reference = r ∧ f.identity = pkg.identity := by
    intro r o pkg hra hp
    have hk := (reached_of_acceptable ha hra).2
    obtain ⟨f,hf,ht⟩ := (FeatureLock.mem_features hl).mp (contains_iff.mp hk)
    obtain ⟨⟨o',hrc⟩,own,ho,hi,-⟩ := hpl.reached hf
    have hre := hd _ _ _ _ hrc hra ht
    rw [hre,hp,Option.some.injEq] at ho
    exact ⟨f,hf,hre,ho ▸ hi.symm⟩
  intro r o r' o' pkg pkg' hr hr' hp hp' hi
  obtain ⟨f,hf,hre,hfi⟩ := hfe r o pkg hr hp
  obtain ⟨f',hf',hre',hfi'⟩ := hfe r' o' pkg' hr' hp'
  have hs := inj_on_of_nodup_map hpl.nodup hf hf' (hfi.trans (hi.trans hfi'.symm))
  rw [← hre,← hre',hs]

end

/-- A lock resolves again to its plan where every identity is reached under one text. Where the
texts of reached references differ, this is also necessary. -/
theorem resolvesFrozen_oneText (json : JsonCrate) (urls : UrlCrate)
    (requests : List FeatureRequest) (packages : FeatureCatalog) (overrides : List Text)
    (plan : ResolvedFeatures) (lock : FeatureLock) (hcontent : OneContent packages)
    (hplan : resolveFeatures urls requests packages overrides = .ok plan)
    (hlock : FeatureLock.fromResolution requests plan packages = .ok lock)
    (hjson : json.ReadsBack lock.encode) :
    (OneText packages requests → ResolvesFrozen json urls requests packages overrides plan lock) ∧
    (TextsDiffer packages requests →
      ResolvesFrozen json urls requests packages overrides plan lock →
      OneText packages requests) :=
  ⟨fun ht => ht.resolvesFrozen hcontent.coherent hplan hlock hjson,
    fun hd h => h.oneText hcontent.coherent hd hplan hlock⟩

def sampleIntegrity : Text := "sha256:"++List.replicate 64 'a'

def lockedPackage (path : String) (dependsOn : List FeatureReference) : FeaturePackage :=
  { localPackage path dependsOn [] with integrity := some sampleIntegrity }

def lockedCatalog : FeatureCatalog :=
  .ofList ([lockedPackage "./a" [],lockedPackage "./b" [.localPath "./a"]].map
    fun p => (p.reference, p))

def lockedRequests : List FeatureRequest := [⟨.localPath "./b",.empty⟩]

theorem exists_plan_lock (requests : List FeatureRequest) (packages : FeatureCatalog)
    (P : ResolvedFeatures × FeatureLock → Prop) [DecidablePred P]
    (h : (do
      let pl ← resolveFeatures noUrls requests packages []
      let lock ← FeatureLock.fromResolution requests pl packages
      .ok (pl, lock) : Except FeatureError (ResolvedFeatures × FeatureLock)).toOption.any
        (fun p => decide (P p)) = true) :
    ∃ pl lock, resolveFeatures noUrls requests packages [] = .ok pl ∧
      FeatureLock.fromResolution requests pl packages = .ok lock ∧ P (pl, lock) := by
  obtain ⟨rs,hre,hP⟩ := exists_ok_and (Q := P) h fun _ _ hP => hP
  obtain ⟨pl,hpl,hr⟩ := bind_eq_ok.mp hre
  obtain ⟨lock,hl,hp⟩ := bind_eq_ok.mp hr
  cases hp
  exact ⟨pl,lock,hpl,hl,hP⟩

/-- Writes every document and reads the one that was written. -/
def readerOf (document : Json) : JsonCrate where
  toTextPretty := JsonText.render
  fromText text := if text = JsonText.render document++['\n'] then some document else none

theorem resolvesFrozen_sample : ∃ plan lock,
    resolveFeatures noUrls lockedRequests lockedCatalog [] = .ok plan ∧
    FeatureLock.fromResolution lockedRequests plan lockedCatalog = .ok lock ∧
    lock.features.keys = ["./a".toList,"./b".toList] ∧
    ResolvesFrozen (readerOf lock.encode) noUrls lockedRequests lockedCatalog [] plan lock := by
  obtain ⟨plan,lock,hpl,hl,hk⟩ := exists_plan_lock lockedRequests lockedCatalog
    (fun p => p.2.features.keys = ["./a".toList,"./b".toList]) (by decide +kernel)
  have he : ∀ e ∈ lockedCatalog.entries, ∀ e' ∈ lockedCatalog.entries,
      e.2.identity = e'.2.identity → e.1 = e'.1 := by
    decide +kernel
  have hd : ∀ r r' pkg pkg', lockedCatalog.get? r = some pkg →
      lockedCatalog.get? r' = some pkg' → pkg.identity = pkg'.identity → r = r' :=
    fun r r' pkg pkg' hp hp' => he (r, pkg)
      (lockedCatalog.mem_entries.mpr hp) (r', pkg') (lockedCatalog.mem_entries.mpr hp')
  have hc : OneContent lockedCatalog := by
    intro r r' pkg pkg' hp hp' hi
    have hr := hd r r' pkg pkg' hp hp' hi
    rw [hr,hp',Option.some.injEq] at hp
    rw [hp]
    exact ⟨rfl,rfl,rfl⟩
  have hf := (resolvesFrozen_oneText (readerOf lock.encode) noUrls
    lockedRequests lockedCatalog [] plan lock hc hpl hl (if_pos rfl)).1
  refine ⟨plan,lock,hpl,hl,hk,hf ?_⟩
  intro r _ r' _ pkg pkg' _ _ hp hp' hi
  rw [hd r r' pkg pkg' hp hp' hi]

/-- One image under two tags, with a verified content. -/
def taggedLockPackage (reference : String) : FeaturePackage where
  reference := .oci reference.toList
  identity := .ociDigest sampleIntegrity
  metadata := { id := ['a'], version := ['1'] }
  digest := some sampleIntegrity
  integrity := some sampleIntegrity

def taggedLockCatalog : FeatureCatalog :=
  .ofList ([taggedLockPackage "ghcr.io/x/a:1",taggedLockPackage "ghcr.io/x/a:2"].map
    fun p => (p.reference, p))

def taggedLockRequests : List FeatureRequest :=
  [⟨.oci "ghcr.io/x/a:1",.empty⟩,⟨.oci "ghcr.io/x/a:2",.empty⟩]

/-- The second tag is requested and not recorded, so the lock cannot be resolved. -/
theorem resolvesFrozen_tags : OneContent taggedLockCatalog ∧ ∃ plan lock,
    resolveFeatures noUrls taggedLockRequests taggedLockCatalog [] = .ok plan ∧
    FeatureLock.fromResolution taggedLockRequests plan taggedLockCatalog = .ok lock ∧
    resolveFeatures noUrls taggedLockRequests (lock.recorded taggedLockCatalog) [] =
      .error (.missingPackage (.oci "ghcr.io/x/a:2") "ghcr.io/x/a:2") ∧
    ∀ json, ¬ ResolvesFrozen json noUrls taggedLockRequests taggedLockCatalog [] plan lock := by
  constructor
  · intro r r' pkg pkg' hp hp' _
    have hc : ∀ e ∈ taggedLockCatalog.entries,
        e.2.metadata = { id := ['a'], version := ['1'] } ∧ e.2.digest = some sampleIntegrity ∧
          e.2.integrity = some sampleIntegrity := by
      intro e he
      have hv : e ∈ [taggedLockPackage "ghcr.io/x/a:1",
        taggedLockPackage "ghcr.io/x/a:2"].map fun p => (p.reference, p) := he
      obtain ⟨p,hme,rfl⟩ := mem_map.mp hv
      rcases mem_pair.mp hme with rfl | rfl <;> exact ⟨rfl,rfl,rfl⟩
    obtain ⟨hm,hd,hi⟩ := hc _ (taggedLockCatalog.mem_entries.mpr hp)
    obtain ⟨hm',hd',hi'⟩ := hc _ (taggedLockCatalog.mem_entries.mpr hp')
    exact ⟨hm.trans hm'.symm,hd.trans hd'.symm,hi.trans hi'.symm⟩
  · obtain ⟨plan,lock,hpl,hl,her⟩ := exists_plan_lock taggedLockRequests
      taggedLockCatalog (fun p => (match resolveFeatures noUrls taggedLockRequests
          (p.2.recorded taggedLockCatalog) [] with
        | .ok _ => none
        | .error e => some e) = some (.missingPackage (.oci "ghcr.io/x/a:2")
          "ghcr.io/x/a:2")) (by decide +kernel)
    split at her
    · cases her
    · next e hr =>
      cases her
      exact ⟨plan,lock,hpl,hl,hr,fun _ hf =>
        nomatch hr.symm.trans hf.resolves⟩

end FeatureResolution
end Cdenv
