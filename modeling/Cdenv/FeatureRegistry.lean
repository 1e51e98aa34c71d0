import Cdenv.Fallible
import Cdenv.FeatureHttp

/-!
# The registry protocol and what it requests

An OCI reference is fetched by up to three kinds of request: the manifest, perhaps a second
manifest that an index selects, and the layer, unless the cache holds it. A request that is
refused with a challenge is repeated once with an anonymous token, for which the realm of
the challenge is requested. An HTTPS reference is one request.

Digests, the three JSON documents and the answers of the blob cache are parameters. The
extraction of the archive and the reading of its metadata request nothing and are left out:
a resolution ends with the digests of what it has fetched.
-/
namespace Cdenv.FeatureRegistry
open TextScan Interaction Interaction.Program FeatureHttp

structure Descriptor where
  (mediaType digest : Text)
  size : ℕ

structure TokenDocument where
  (token accessToken : Option Text)

/-- The libraries that the resolution uses beyond the requests. -/
structure RegistryCrate extends HttpCrate where
  digestBytes : List UInt8 → Text
  (indexDocument manifestDocument : List UInt8 → Except Text (List Descriptor))
  tokenDocument : List UInt8 → Except Text TokenDocument

/-- What the blob cache answers: whether it holds a blob, and whether it took one. -/
structure BlobCache where
  verifyCached : (digest : Text) → (size : ℕ) → Except FeatureSourceError Bool
  store : (digest : Text) → (size : ℕ) → Except FeatureSourceError Unit

structure FeatureSourceLimits where
  (redirects metadataBytes blobBytes : ℕ)

def ociManifest : Text := "application/vnd.oci.image.manifest.v1+json"
def dockerManifest : Text := "application/vnd.docker.distribution.manifest.v2+json"
def ociIndex : Text := "application/vnd.oci.image.index.v1+json"
def dockerList : Text := "application/vnd.docker.distribution.manifest.list.v2+json"
def featureLayerType : Text := "application/vnd.devcontainers.layer.v1+tar"
def featureLayerGzip : Text := "application/vnd.devcontainers.layer.v1+tar+gzip"

def acceptedManifests : Text :=
  List.intercalate ", " [ociManifest,dockerManifest,ociIndex,dockerList]

def oci {A : Type} (message : String) : Except FeatureSourceError A := .error (.oci message.toList)

def authentication {A : Type} (message : String) : Except FeatureSourceError A :=
  .error (.authentication message.toList)

def orElse {A : Type} (result : Except Text A) (failure : Text → FeatureSourceError) :
    Except FeatureSourceError A :=
  match result with
  | .ok a => .ok a
  | .error message => .error (failure message)

def validateDigest (value : Text) : Except FeatureSourceError Unit :=
  match stripPrefix "sha256:" value with
  | none => oci "only SHA-256 digests are supported"
  | some hex =>
    if hex.length = 64 ∧ hex.all (fun c => c.isDigit || ('a' ≤ c && c ≤ 'f')) then .ok ()
    else oci "malformed SHA-256 digest"

structure OciReference where
  (registry repository selector : Text)
  digest : Option Text

def OciReference.parse (value : Text) : Except FeatureSourceError OciReference :=
  let (name, digest) := match splitOnce '@' value with
    | some (name, digest) => (name, some digest)
    | none => (value, none)
  match splitOnce '/' name with
  | none => oci "reference has no repository"
  | some (registry, remainder) =>
    let (repository, tag) := match rsplitOnce ':' remainder with
      | some (left, tag) =>
        if left.getLast? = some '/' then (remainder, "latest".toList) else (left, tag)
      | none => (remainder, "latest".toList)
    .ok ⟨registry,repository,digest.getD tag,digest⟩

def OciReference.base (reference : OciReference) : Text :=
  "https://"++reference.registry++"/v2/"++reference.repository

def selectManifest (manifests : List Descriptor) : Except FeatureSourceError Descriptor :=
  match manifests.filter fun item => item.mediaType = ociManifest ∨ item.mediaType = dockerManifest
  with
  | [] => oci "manifest list has no supported Feature manifest"
  | _::_::_ => oci "manifest list has ambiguous Feature manifests"
  | [manifest] => do
    validateDigest manifest.digest
    pure manifest

def featureLayer (layers : List Descriptor) : Except FeatureSourceError Descriptor :=
  match layers with
  | [] => oci "manifest has no Feature layer"
  | _::_::_ => oci "manifest has multiple layers; exactly one Feature layer is required"
  | [layer] =>
    if layer.mediaType = featureLayerType ∨ layer.mediaType = featureLayerGzip then do
      validateDigest layer.digest
      pure layer
    else .error (.oci ("manifest layer has unsupported Feature media type `" ++
      layer.mediaType++"`"))

structure BearerFields where
  realm : Text
  (service scope : Option Text)

def unquote (value : Text) : Option Text :=
  (stripPrefix ['"'] value).bind fun inner =>
    if inner.getLast? = some '"' then some inner.dropLast else none

/-- One field of the challenge, into the three that are kept; a later one replaces. -/
def challengeField (fields : Option Text × Option Text × Option Text) (field : Text) :
    Except FeatureSourceError (Option Text × Option Text × Option Text) :=
  match splitOnce '=' (trim field) with
  | none => authentication "malformed Bearer challenge"
  | some (name, value) =>
    match unquote (trim value) with
    | none => authentication "malformed Bearer challenge value"
    | some value =>
      if name = "realm".toList then .ok (some value, fields.2)
      else if name = "service".toList then .ok (fields.1, some value, fields.2.2)
      else if name = "scope".toList then .ok (fields.1, fields.2.1, some value)
      else .ok fields

/-- A challenge is cut at every comma before a quote is looked at. -/
def parseBearerChallenge (value : Text) : Except FeatureSourceError BearerFields :=
  match (stripPrefix "Bearer " value).or (stripPrefix "bearer " value) with
  | none => authentication "registry did not offer anonymous Bearer authentication"
  | some body => do
    let (realm, service, scope) ←
      (body.splitOn ',').foldlM challengeField (none, none, none)
    match realm with
    | none => authentication "Bearer challenge omitted realm"
    | some realm => .ok ⟨realm,service,scope⟩

def readChunks (limit : ℕ) : List (Option (List UInt8)) → List UInt8 →
    Except FeatureSourceError (List UInt8)
  | [], bytes => .ok bytes
  | none::_, _ => .error (.transport "<response-body>")
  | some chunk::chunks, bytes =>
    if limit < min (bytes.length+chunk.length) (2^64 - 1) then
      .error (.limit "response bytes" limit)
    else readChunks limit chunks (bytes++chunk)

def readResponse (response : Response) (limit : ℕ) : Except FeatureSourceError (List UInt8) :=
  if response.contentLength.any (limit < ·) then .error (.limit "response bytes" limit)
  else readChunks limit response.chunks []

/-- `checked_download_size`, chunk by chunk. -/
def downloadChunks (limit : ℕ) : List (Option (List UInt8)) → List UInt8 →
    Except FeatureSourceError (List UInt8)
  | [], bytes => .ok bytes
  | none::_, _ => .error (.transport "<response-body>")
  | some chunk::chunks, bytes =>
    if 2^64 ≤ bytes.length+chunk.length ∨ limit < bytes.length+chunk.length then
      .error (.limit "download bytes" limit)
    else downloadChunks limit chunks (bytes++chunk)

variable (crate : RegistryCrate) (cache : BlobCache) (limits : FeatureSourceLimits)

def verifyDigest (expected : Text) (bytes : List UInt8) : Except FeatureSourceError Unit :=
  let actual := crate.digestBytes bytes
  if actual = expected then .ok () else .error (.digest expected actual)

def OciReference.manifestUrl (reference : OciReference) (selector : Text) :
    Except FeatureSourceError crate.Url :=
  checkedHttpsUrl crate.toHttpCrate (reference.base++"/manifests/"++selector)

def OciReference.blobUrl (reference : OciReference) (digest : Text) :
    Except FeatureSourceError crate.Url :=
  checkedHttpsUrl crate.toHttpCrate (reference.base++"/blobs/"++digest)

def requireSuccess (response : Response) : Except FeatureSourceError Unit :=
  if response.isSuccess then .ok ()
  else if response.status = 401 ∨ response.status = 403 then
    .error (.authentication ("registry returned "++crate.statusText response.status))
  else .error (.oci ("server returned "++crate.statusText response.status))

def verifyManifestDescriptor (descriptor : Descriptor) (bytes : List UInt8) :
    Except FeatureSourceError Unit :=
  if bytes.length ≠ descriptor.size then
    .error (.oci ("selected manifest size mismatch: expected " ++
      decimal descriptor.size++", observed "++decimal bytes.length))
  else verifyDigest crate descriptor.digest bytes

def readManifest (response : Response) (limit : ℕ) (descriptor : Option Descriptor) :
    Except FeatureSourceError (List UInt8 × Text × Text) := do
  let media := trim (untilFirst ';' (response.contentType.getD ociManifest))
  if media ∉ [ociManifest,dockerManifest,ociIndex,dockerList] then
    .error (.oci ("unsupported manifest media type `"++media++"`"))
  else do
    let bytes ← readResponse response limit
    match descriptor with
    | some descriptor => verifyManifestDescriptor crate descriptor bytes
    | none => pure ()
    pure (bytes, crate.digestBytes bytes, media)

/-- Downloads, compares and stores a blob. -/
def cacheResponse (response : Response) (expectedDigest : Option Text) (expectedSize : Option ℕ) :
    Except FeatureSourceError (Text × ℕ) := do
  if response.contentLength.any (limits.blobBytes < ·) then
    .error (.limit "download bytes" limits.blobBytes)
  else do
    let bytes ← downloadChunks limits.blobBytes response.chunks []
    let digest := crate.digestBytes bytes
    if expectedDigest.any (· ≠ digest) then
      .error (.digest (expectedDigest.getD []) digest)
    else if expectedSize.any (· ≠ bytes.length) then
      .error (.oci ("blob size mismatch: expected "++decimal (expectedSize.getD 0) ++
        ", observed "++decimal bytes.length))
    else do
      cache.store digest bytes.length
      pure (digest, bytes.length)

def tokenUrl (realm : crate.Url) (fields : BearerFields) : crate.Url :=
  let url := match fields.service with
    | some service => crate.query realm "service" service
    | none => realm
  match fields.scope with
  | some scope => crate.query url "scope" scope
  | none => url

/-- The anonymous token of a challenge. -/
def bearerToken (challenge : Text) : Fetch crate.toHttpCrate Text := do
  let fields ← .done (parseBearerChallenge challenge)
  let realm ← .done (checkedHttpsUrl crate.toHttpCrate fields.realm)
  let answer ← call (⟨tokenUrl crate realm fields,none,none⟩ : Request crate.toHttpCrate)
  match answer with
  | none => fail (.transport (crate.toText realm))
  | some response => do
    .done (requireSuccess crate response)
    let bytes ← .done (readResponse response limits.metadataBytes)
    let document ← .done (orElse (crate.tokenDocument bytes) .authentication)
    match (document.token.or document.accessToken).filter (fun value => !value.isEmpty) with
    | some token => pure token
    | none => fail (.authentication "token response omitted token")

/-- The response with the token that the call leaves behind. -/
def getOciResponse (url : crate.Url) (accept token : Option Text) :
    Fetch crate.toHttpCrate (Response × Option Text) := do
  let response ← getFollowing crate.toHttpCrate limits.redirects accept limits.redirects url token
  if response.status ≠ 401 then pure (response, token)
  else
    match response.wwwAuthenticate with
    | none =>
      fail (.authentication "registry requires anonymous Bearer authentication")
    | some challenge => do
      let token ← bearerToken crate limits challenge
      let response ←
        getFollowing crate.toHttpCrate limits.redirects accept limits.redirects url (some token)
      pure (response, some token)

def getManifest (parsed : OciReference) (selector : Text) (token : Option Text)
    (descriptor : Option Descriptor) :
    Fetch crate.toHttpCrate ((List UInt8 × Text × Text) × Option Text) := do
  let url ← .done (parsed.manifestUrl crate selector)
  let (response, token) ← getOciResponse crate limits url (some acceptedManifests) token
  .done (requireSuccess crate response)
  let manifest ← .done (readManifest crate response limits.metadataBytes descriptor)
  pure (manifest, token)

def getLayer (parsed : OciReference) (layer : Descriptor) (token : Option Text) :
    Fetch crate.toHttpCrate Unit := do
  let cached ← .done (cache.verifyCached layer.digest layer.size)
  if cached then pure ()
  else do
    let url ← .done (parsed.blobUrl crate layer.digest)
    let (response, _) ← getOciResponse crate limits url none token
    .done (requireSuccess crate response)
    let _ ← .done (cacheResponse crate cache limits response (some layer.digest) (some layer.size))
    pure ()

/-- The manifest that the reference names, or the one that it selects from an index. -/
def getSelected (parsed : OciReference) :
    Fetch crate.toHttpCrate ((List UInt8 × Text) × Option Text) := do
  let ((manifest, digest, media), token) ←
    getManifest crate limits parsed parsed.selector none none
  if media = ociIndex ∨ media = dockerList then do
    let index ← .done (orElse (crate.indexDocument manifest) .oci)
    let descriptor ← .done (selectManifest index)
    let ((manifest, digest, _), token) ←
      getManifest crate limits parsed descriptor.digest token (some descriptor)
    pure ((manifest, digest), token)
  else pure ((manifest, digest), token)

/-- The digests of the manifest and of the layer. -/
def resolveOci (value : Text) : Fetch crate.toHttpCrate (Text × Text) := do
  let parsed ← .done (OciReference.parse value)
  let ((manifest, digest), token) ← getSelected crate limits parsed
  match parsed.digest with
  | some expected => .done (verifyDigest crate expected manifest)
  | none => pure ()
  let layers ← .done (orElse (crate.manifestDocument manifest) .oci)
  let layer ← .done (featureLayer layers)
  getLayer crate cache limits parsed layer token
  pure (digest, layer.digest)

/-- The digest of the archive, twice. -/
def resolveHttps (value : Text) : Fetch crate.toHttpCrate (Text × Text) := do
  let url ← .done (checkedHttpsUrl crate.toHttpCrate value)
  let response ← getFollowing crate.toHttpCrate limits.redirects none limits.redirects url none
  .done (requireSuccess crate response)
  let (digest, _) ← .done (cacheResponse crate cache limits response none none)
  pure (digest, digest)

/-- A local reference requests nothing; what its resolution returns is a parameter. -/
def resolve (resolveLocal : Text → Except FeatureSourceError (Text × Text)) :
    FeatureReference → Fetch crate.toHttpCrate (Text × Text)
  | .localPath value => .done (resolveLocal value)
  | .https value => resolveHttps crate cache limits value
  | .oci value => resolveOci crate cache limits value

/-- The URLs that a reference spells by itself. -/
def Spelled (crate : RegistryCrate) (reference : FeatureReference) (url : crate.Url) : Prop :=
  match reference with
  | .localPath _ => False
  | .https value => crate.parse value = .ok url
  | .oci value => ∃ parsed selector, OciReference.parse value = .ok parsed ∧
      (crate.parse (parsed.base++"/manifests/"++selector) = .ok url ∨
        crate.parse (parsed.base++"/blobs/"++selector) = .ok url)

/-- The URL that the `Location` of an answer spells, seen from the URL that was requested. -/
def Redirects (crate : RegistryCrate) (requested : crate.Url) (response : Response)
    (url : crate.Url) : Prop :=
  ∃ location joined, response.location = some location ∧
    crate.join requested location = some joined ∧ crate.parse (crate.toText joined) = .ok url

/-- The URL that the realm of a challenge spells. -/
def Challenges (crate : RegistryCrate) (response : Response) (url : crate.Url) : Prop :=
  ∃ challenge fields, response.wwwAuthenticate = some challenge ∧
    parseBearerChallenge challenge = .ok fields ∧ crate.parse fields.realm = .ok url

section
variable {crate cache limits} {G : crate.Url → Prop}

/-- Every checked URL that the answer spells is of the kind. -/
def Leads (G : crate.Url → Prop) (request : Request crate.toHttpCrate)
    (answer : Option Response) : Prop :=
  ∀ response, answer = some response → ∀ url, Accepted crate.toHttpCrate url →
    Redirects crate request.url response url ∨ Challenges crate response url → G url

def Asks (G : crate.Url → Prop) (request : Request crate.toHttpCrate) : Prop := G request.url

/-- A challenge of this response is one that may be answered. -/
def Welcome (G : crate.Url → Prop) (response : Response) : Prop :=
  ∀ url, Accepted crate.toHttpCrate url → Challenges crate response url → G url

theorem abides_done {α : Type} {R : α → Prop} {r : Except FeatureSourceError α}
    (hr : ∀ a, r = .ok a → R a) :
    Abides (Leads G) (Asks G) R (.done r : Fetch crate.toHttpCrate α) := by
  cases r with
  | ok a => exact hr a rfl
  | error e => trivial

theorem abides_check {α β : Type} {R : β → Prop} {r : Except FeatureSourceError α}
    {f : α → Fetch crate.toHttpCrate β} (hf : ∀ a, Abides (Leads G) (Asks G) R (f a)) :
    Abides (Leads G) (Asks G) R (.done r >>= f) := by
  cases r with
  | ok a => exact hf a
  | error e => trivial

variable {req : Request crate.toHttpCrate}

theorem abides_send (hu : G req.url) :
    Abides (Leads G) (Asks G) (fun response => Leads G req (some response))
      (send crate.toHttpCrate req) := by
  refine ⟨hu,fun a hl => ?_⟩
  cases a with
  | none => trivial
  | some response => exact hl

variable {response : Response}

theorem Leads.welcome (hl : Leads G req (some response)) : Welcome G response :=
  fun url ha hc => hl response rfl url ha (.inr hc)

theorem Leads.redirect {req : Request crate.toHttpCrate} {redirect : crate.Url}
    (hl : Leads G req (some response))
    (hok : redirectTarget crate.toHttpCrate req.url response = .ok redirect) : G redirect := by
  obtain ⟨location,joined,hlo,hj,hc⟩ := redirectTarget_eq_ok hok
  apply hl response rfl redirect (redirectTarget_accepted hok)
  exact .inl ⟨location,joined,hlo,hj,(checkedHttpsUrl_eq_ok hc).1⟩

theorem abides_getFollowing {redirects left : ℕ} {accept auth : Option Text}
    {url : crate.Url} (hu : G url) :
    Abides (Leads G) (Asks G) (Welcome G)
      (getFollowing crate.toHttpCrate redirects accept left url auth) := by
  induction left generalizing url auth with
  | zero =>
    rw [getFollowing]
    apply (abides_send hu).bind
    intro response hl
    split_ifs
    · exact abides_fail
    · exact hl.welcome
  | succ left ih =>
    rw [getFollowing]
    apply (abides_send hu).bind
    intro response hl
    split_ifs
    · apply (abides_done fun rd hok => hl.redirect hok).bind
      intro rd hr
      exact ih hr
    · exact hl.welcome

section
variable (hq : ∀ url name value, G url → G (crate.query url name value))
include hq

theorem tokenUrl_of {realm : crate.Url} (hr : G realm) (fs : BearerFields) :
    G (tokenUrl crate realm fs) := by
  unfold tokenUrl
  cases fs.service <;> cases fs.scope <;> simp only [hr,hq]

theorem abides_bearerToken (hw : Welcome G response) {challenge : Text}
    (hc : response.wwwAuthenticate = some challenge) :
    Abides (Leads G) (Asks G) (fun _ => True) (bearerToken crate limits challenge) := by
  apply (abides_done (R := fun fs => parseBearerChallenge challenge = .ok fs) fun fs hf => hf).bind
  intro fs hf
  have hr : ∀ realm, checkedHttpsUrl crate.toHttpCrate fs.realm = .ok realm → G realm :=
    fun realm hok => hw realm ⟨_,hok⟩ ⟨challenge,fs,hc,hf,(checkedHttpsUrl_eq_ok hok).1⟩
  apply (abides_done hr).bind
  intro realm hG
  -- Past this request only the answer is read.
  have ha : Asks G ⟨tokenUrl crate realm fs,none,none⟩ := tokenUrl_of hq hG fs
  apply (abides_call ha (R := fun _ => True) fun _ _ => trivial).bind
  intro a _
  cases a with
  | none => trivial
  | some response =>
    apply abides_check
    intro _
    apply abides_check
    intro bs
    apply abides_check
    intro document
    split
    all_goals trivial

variable {token : Option Text} {pd : OciReference}

theorem abides_getOciResponse {url : crate.Url} (hu : G url) {accept : Option Text} :
    Abides (Leads G) (Asks G) (fun _ => True) (getOciResponse crate limits url accept token) := by
  apply (abides_getFollowing hu).bind
  intro response hw
  split_ifs
  · trivial
  · split
    · trivial
    · next challenge hc =>
      apply (abides_bearerToken hq hw hc).bind
      intro token _
      apply (abides_getFollowing hu).bind
      intro response _
      trivial

theorem abides_getManifest {sel : Text} (hu : ∀ url, pd.manifestUrl crate sel = .ok url → G url)
    {descriptor : Option Descriptor} : Abides (Leads G) (Asks G) (fun _ => True)
      (getManifest crate limits pd sel token descriptor) := by
  apply (abides_done hu).bind
  intro url hG
  apply (abides_getOciResponse hq hG).bind
  intro a _
  apply abides_check
  intro _
  apply abides_check
  intro mf
  trivial

theorem abides_getLayer {ly : Descriptor}
    (hu : ∀ url, pd.blobUrl crate ly.digest = .ok url → G url) :
    Abides (Leads G) (Asks G) (fun _ => True) (getLayer crate cache limits pd ly token) := by
  apply abides_check
  intro cached
  split_ifs
  · trivial
  · apply (abides_done hu).bind
    intro url hG
    apply (abides_getOciResponse hq hG).bind
    intro a _
    apply abides_check
    intro _
    apply abides_check
    intro _
    trivial

theorem abides_getSelected (hu : ∀ sel url, pd.manifestUrl crate sel = .ok url → G url) :
    Abides (Leads G) (Asks G) (fun _ => True) (getSelected crate limits pd) := by
  apply (abides_getManifest hq (hu _)).bind
  rintro ⟨⟨mf,dg,media⟩,token⟩ _
  dsimp only
  split_ifs
  · apply abides_check
    intro i
    apply abides_check
    intro descriptor
    apply (abides_getManifest hq (hu _)).bind
    intro a _
    trivial
  · trivial

/-- Every request of a resolution is of the kind of URL that the reference spells and that
every answer leads to. -/
theorem abides_resolve {resolveLocal : Text → Except FeatureSourceError (Text × Text)}
    {ref : FeatureReference}
    (hs : ∀ url, Accepted crate.toHttpCrate url → Spelled crate ref url → G url) :
    Abides (Leads G) (Asks G) (fun _ => True) (resolve crate cache limits resolveLocal ref) := by
  cases ref with
  | localPath value => exact abides_done fun _ _ => trivial
  | https value =>
    rw [resolve,resolveHttps]
    apply (abides_done (R := G) fun url hok =>
      hs url ⟨value,hok⟩ (checkedHttpsUrl_eq_ok hok).1).bind
    intro url hG
    apply (abides_getFollowing hG).bind
    intro response _
    apply abides_check
    intro _
    apply abides_check
    intro _
    trivial
  | oci value =>
    rw [resolve,resolveOci]
    apply (abides_done (R := fun pd => OciReference.parse value = .ok pd) fun pd hp => hp).bind
    intro pd hp
    have hm : ∀ sel url, pd.manifestUrl crate sel = .ok url → G url :=
      fun sel url hok => hs url ⟨_,hok⟩ ⟨pd,sel,hp,.inl (checkedHttpsUrl_eq_ok hok).1⟩
    have hb : ∀ dg url, pd.blobUrl crate dg = .ok url → G url :=
      fun dg url hok => hs url ⟨_,hok⟩ ⟨pd,dg,hp,.inr (checkedHttpsUrl_eq_ok hok).1⟩
    apply (abides_getSelected hq hm).bind
    rintro ⟨⟨mf,dg⟩,token⟩ _
    have hl : Abides (Leads G) (Asks G) (fun _ => True) (do
        let layers ← .done (orElse (crate.manifestDocument mf) .oci)
        let ly ← .done (featureLayer layers)
        getLayer crate cache limits pd ly token
        pure (dg, ly.digest) : Fetch crate.toHttpCrate (Text × Text)) := by
      apply abides_check
      intro layers
      apply abides_check
      intro ly
      apply (abides_getLayer hq (hb _)).bind
      intro _ _
      trivial
    dsimp only
    split
    · exact abides_check fun _ => hl
    · exact hl

end
end

open Fallible List

inductive ParameterName where
  | realm | service | scope

def ParameterName.text : ParameterName → Text
  | .realm => "realm"
  | .service => "service"
  | .scope => "scope"

/-- A parameter and the blanks before it. -/
structure WrittenField where
  blanks : Text
  blank : ∀ c ∈ blanks, c = ' ' ∨ c = '\t'
  name : ParameterName
  value : Text

def WrittenField.text (w : WrittenField) : Text :=
  w.blanks++(w.name.text++ '=':: '"'::(w.value++['"']))

/-- The parameters of a challenge; those without a value are not written. -/
def BearerFields.parameters (f : BearerFields) : List (ParameterName × Text) :=
  (.realm, f.realm)::((f.service.map (.service, ·)).toList++(f.scope.map (.scope, ·)).toList)

/-- A challenge with the given values, in some order. -/
structure Challenge (f : BearerFields) where
  fields : List WrittenField
  order : (fields.map fun w => (w.name, w.value)).Perm f.parameters

def Challenge.text {f : BearerFields} (c : Challenge f) : Text :=
  "Bearer "++[','].intercalate (c.fields.map WrittenField.text)

/-- What `challengeField` does with a parameter that it could read. -/
def keep (read : Option Text × Option Text × Option Text) :
    ParameterName × Text → Option Text × Option Text × Option Text
  | (.realm, v) => (some v, read.2)
  | (.service, v) => (read.1, some v, read.2.2)
  | (.scope, v) => (read.1, read.2.1, some v)

variable {f : BearerFields} {w : WrittenField} {s : Text}
variable {read : Option Text × Option Text × Option Text}

theorem rdropWhile_append_cons {p : Char → Bool} {c : Char} (h : p c = false) (a b : Text) :
    (a++c::b).rdropWhile p = a++c::b.rdropWhile p := by
  rw [rdropWhile,reverse_append,reverse_cons,append_assoc,dropWhile_append,rdropWhile]
  split_ifs with hb
  · rw [isEmpty_iff.mp hb]
    simp [h]
  · simp

theorem trim_field (w : WrittenField) (s : Text) : trim (w.blanks++(w.name.text++ '=':: '"'::s)) =
    w.name.text++ '=':: '"'::s.rdropWhile isWhitespace := by
  have hb : ∀ c ∈ w.blanks, isWhitespace c = true := by
    intro c hc
    rcases w.blank c hc with rfl | rfl <;> decide
  have ht : trimStart (w.blanks++(w.name.text++ '=':: '"'::s)) = w.name.text++ '=':: '"'::s := by
    rw [trimStart,dropWhile_append_of_pos hb]
    cases w.name <;> rfl
  rw [trim,ht,append_cons,rdropWhile_append_cons (by decide),← append_cons]

theorem challengeField_eq (w : WrittenField) (s : Text) :
    challengeField read (w.blanks++(w.name.text++ '=':: '"'::s)) =
      match unquote ('"'::s.rdropWhile isWhitespace) with
      | none => authentication "malformed Bearer challenge value"
      | some v => .ok (keep read (w.name, v)) := by
  have hn : '=' ∉ w.name.text := by cases w.name <;> decide
  have ht : trim ('"'::s.rdropWhile isWhitespace) = '"'::s.rdropWhile isWhitespace := by
    change rdropWhile isWhitespace ([]++ '"'::s.rdropWhile isWhitespace) = _
    rw [rdropWhile_append_cons (by decide),rdropWhile_idempotent]
    rfl
  rw [challengeField,trim_field,splitOnce_append _ hn]
  dsimp only
  rw [ht]
  cases unquote ('"'::s.rdropWhile isWhitespace) with
  | none => rfl
  | some v => cases w.name <;> rfl

theorem challengeField_text (w : WrittenField) :
    challengeField read w.text = .ok (keep read (w.name, w.value)) := by
  have hu : unquote ('"'::(w.value++['"'])) = some w.value := by simp [unquote,stripPrefix]
  rw [WrittenField.text,challengeField_eq,rdropWhile_append_cons (by decide),rdropWhile_nil,hu]

/-- A value that is cut has no closing quote. -/
theorem challengeField_cut (w : WrittenField) (h : '"' ∉ s) :
    challengeField read (w.blanks++(w.name.text++ '=':: '"'::s)) =
      authentication "malformed Bearer challenge value" := by
  have hu : unquote ('"'::s.rdropWhile isWhitespace) = none := by
    have hl : (s.rdropWhile isWhitespace).getLast? ≠ some '"' := fun hl =>
      h ((List.rdropWhile_prefix _ _).subset (mem_of_getLast? hl))
    simp [unquote,stripPrefix,hl]
  rw [challengeField_eq,hu]

theorem foldlM_text (l : List WrittenField) : (l.map WrittenField.text).foldlM challengeField read =
      .ok ((l.map fun w => (w.name, w.value)).foldl keep read) := by
  induction l generalizing read with
  | nil => rfl
  | cons w l ih =>
    rw [map_cons,foldlM_cons,challengeField_text]
    exact ih

theorem foldl_keep {l : List (ParameterName × Text)} (h : l.Perm f.parameters) :
    l.foldl keep (none, none, none) = (some f.realm, f.service, f.scope) := by
  have hc : ∀ p ∈ f.parameters, ∀ q ∈ f.parameters, ∀ r, keep (keep r p) q = keep (keep r q) p := by
    obtain ⟨realm,svc,sco⟩ := f
    cases svc <;> cases sco <;> simp [BearerFields.parameters,keep]
  rw [h.foldl_eq' fun p hp q hq => hc p (h.mem_iff.mp hp) q (h.mem_iff.mp hq)]
  obtain ⟨realm,svc,sco⟩ := f
  cases svc <;> cases sco <;> rfl

theorem foldlM_error {e : FeatureHttp.FeatureSourceError} {l : List Text} (hs : s ∈ l)
    (h : ∀ read, challengeField read s = .error e) :
    ∃ e', l.foldlM challengeField read = .error e' := by
  induction l generalizing read with
  | nil => cases hs
  | cons t l ih =>
    rw [foldlM_cons]
    cases hr : challengeField read t with
    | error e' => exact ⟨e',rfl⟩
    | ok read' =>
      rcases mem_cons.mp hs with rfl | hs
      · rw [h] at hr
        cases hr
      · exact ih hs

theorem not_mem_label (w : WrittenField) : ',' ∉ w.blanks++(w.name.text++['=','"']) := by
  have hb : ',' ∉ w.blanks := fun hb => by rcases w.blank _ hb with h | h <;> cases h
  have hn : ',' ∉ w.name.text := by cases w.name <;> decide
  simp [hb,hn]

/-- The text before a comma in a value is a piece of its own. -/
theorem mem_splitOn_text {a b : Text} (h : w.value = a++ ','::b) (ha : ',' ∉ a) :
    w.blanks++(w.name.text++ '=':: '"'::a) ∈ w.text.splitOn ',' := by
  have ht : w.text = (w.blanks++(w.name.text++ '=':: '"'::a))++ ','::(b++['"']) := by
    simp [WrittenField.text,h]
  rw [ht,splitOn_append_cons_self_of_not_mem]
  · exact mem_cons_self
  · simpa [ha] using not_mem_label w

theorem splitOn_intercalate_flatMap {l : List Text} (h : l ≠ []) :
    ([','].intercalate l).splitOn ',' = l.flatMap (splitOn ',') := by
  induction l with
  | nil => exact absurd rfl h
  | cons s l ih =>
    cases l with
    | nil => simp
    | cons t l =>
      rw [intercalate_cons_cons,append_assoc,singleton_append,splitOn_append_cons_self,
        ih (cons_ne_nil _ _)]
      rfl

theorem parseBearerChallenge_eq (s : Text) : parseBearerChallenge ("Bearer "++s) =
    ((s.splitOn ',').foldlM challengeField (none, none, none)).bind fun p =>
      match p.1 with
      | none => authentication "Bearer challenge omitted realm"
      | some realm => .ok ⟨realm,p.2.1,p.2.2⟩ := by
  have hs : stripPrefix "Bearer " ("Bearer "++s) = some s := by simp [stripPrefix]
  rw [parseBearerChallenge,hs]
  rfl

/-- The written values come back exactly where no comma is in them. -/
theorem parseBearerChallenge_text (f : BearerFields) (c : Challenge f)
    (hq : ∀ p ∈ f.parameters, '"' ∉ p.2 ∧ '\\' ∉ p.2) :
    parseBearerChallenge c.text = .ok f ↔ ∀ p ∈ f.parameters, ',' ∉ p.2 := by
  have hm : ∀ w ∈ c.fields, (w.name, w.value) ∈ f.parameters := fun w hw =>
    c.order.mem_iff.mp (mem_map.mpr ⟨w,hw,rfl⟩)
  have hne : c.fields.map WrittenField.text ≠ [] := by
    intro he
    have := c.order.length_eq
    rw [map_eq_nil_iff.mp he] at this
    cases this
  have he : parseBearerChallenge c.text = _ := parseBearerChallenge_eq _
  constructor
  · intro h p hp hc
    obtain ⟨w,hw,rfl⟩ := mem_map.mp (c.order.mem_iff.mpr hp)
    obtain ⟨a,b,hv,ha⟩ := eq_append_cons_of_mem hc
    have hs : w.blanks++(w.name.text++ '=':: '"'::a) ∈
        ([','].intercalate (c.fields.map WrittenField.text)).splitOn ',' := by
      rw [splitOn_intercalate_flatMap hne]
      exact mem_flatMap.mpr ⟨_,mem_map_of_mem hw,mem_splitOn_text hv ha⟩
    have hn : '"' ∉ a := fun hn => (hq _ hp).1 (hv ▸ mem_append_left _ hn)
    obtain ⟨e,hf⟩ := foldlM_error hs fun _ => challengeField_cut w hn
    rw [hf] at he
    cases he.symm.trans h
  · intro h
    have ht : ∀ t ∈ c.fields.map WrittenField.text, ',' ∉ t := by
      intro t ht
      obtain ⟨w,hw,rfl⟩ := mem_map.mp ht
      have hl := not_mem_label w
      have hv := h _ (hm w hw)
      simp_all [WrittenField.text]
    rw [splitOn_intercalate ',' ht hne,foldlM_text,foldl_keep c.order] at he
    exact he

/-- The service before the realm, a tab after the comma and an equals sign in the realm. -/
def swappedChallenge : Challenge ⟨"https://a/t?b=c",some "s",none⟩ where
  fields := [⟨[],nofun,.service,"s"⟩,⟨['\t'],by simp,.realm,"https://a/t?b=c"⟩]
  order := .swap _ _ _

theorem parseBearerChallenge_text_swapped : parseBearerChallenge swappedChallenge.text =
    .ok ⟨"https://a/t?b=c",some "s",none⟩ :=
  (parseBearerChallenge_text _ swappedChallenge (by decide)).mpr (by decide)

/-- A scope of two actions. -/
def commaChallenge : Challenge ⟨"https://a",none,some "repository:b:pull,push"⟩ where
  fields := [⟨[],nofun,.realm,"https://a"⟩,⟨[],nofun,.scope,"repository:b:pull,push"⟩]
  order := .refl _

theorem two_actions_not_read : parseBearerChallenge commaChallenge.text =
      authentication "malformed Bearer challenge value" := rfl

end Cdenv.FeatureRegistry
