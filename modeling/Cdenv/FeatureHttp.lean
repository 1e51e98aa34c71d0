import Cdenv.FeatureReference
import Cdenv.Interaction

/-!
# Verified requests and the redirect policy

Redirects are followed by hand, up to a limit: each target passes the same check as a URL that the
user writes, and the bearer token stays with the requests only as long as no step leaves the
origin of the step before it.

The parsing and joining of URLs is the library's and remains a parameter.
-/
namespace Cdenv.FeatureHttp
open TextScan Interaction Interaction.Program
open FeatureReference (privateName privateIp)

/-- What the requests use of the URL and HTTP libraries beyond normalization. -/
structure HttpCrate extends UrlCrate where
  scheme : Url → Text
  portOrKnownDefault : Url → Option ℕ
  join : Url → Text → Option Url
  /-- The URL with one further query pair. -/
  query : Url → Text → Text → Url
  statusText : ℕ → Text

inductive FeatureSourceError where
  | url (url : Text) (message : String)
  | transport (url : Text)
  | limit (kind : String) (limit : ℕ)
  | authentication (message : Text)
  | oci (message : Text)
  | digest (expected actual : Text)
  | cache

/-- A header is present here when the source can read it as text; a chunk that does not
arrive is `none`. -/
structure Response where
  status : ℕ
  (location wwwAuthenticate contentType : Option Text)
  contentLength : Option ℕ
  chunks : List (Option (List UInt8))

structure Request (crate : HttpCrate) where
  url : crate.Url
  (accept authorization : Option Text)

abbrev Answer {crate : HttpCrate} (_ : Request crate) := Option Response

/-- A Feature is fetched by a program that asks for one request at a time; what answers is any
server. -/
abbrev Fetch (crate : HttpCrate) := Program (@Answer crate) FeatureSourceError

def Response.isRedirection (response : Response) : Bool :=
  300 ≤ response.status && response.status < 400

def Response.isSuccess (response : Response) : Bool :=
  200 ≤ response.status && response.status < 300

variable (crate : HttpCrate)

/-- An HTTPS URL without credentials to a public host. -/
def checkedHttpsUrl (value : Text) : Except FeatureSourceError crate.Url :=
  match crate.parse value with
  | .error _ => .error (.url value "invalid URL")
  | .ok url =>
    if crate.scheme url ≠ "https" then .error (.url value "verified HTTPS is required")
    else if crate.username url ≠ [] ∨ (crate.password url).isSome then
      .error (.url value "URL credentials are forbidden")
    else
      match crate.hostStr url with
      | none => .error (.url value "public host is required")
      | some host =>
        let lowercase := toAsciiLowercase host
        if privateName lowercase || privateIp lowercase then
          .error (.url value "private or local hosts are forbidden")
        else .ok url

def sameOrigin (left right : crate.Url) : Bool :=
  crate.scheme left == crate.scheme right &&
    ((crate.hostStr left).any fun host =>
      (crate.hostStr right).any fun other => eqIgnoreAsciiCase host other) &&
    crate.portOrKnownDefault left == crate.portOrKnownDefault right

/-- The target of a redirection, resolved against the URL that answered and checked. -/
def redirectTarget (url : crate.Url) (response : Response) : Except FeatureSourceError crate.Url :=
  match response.location with
  | none => .error (.url (crate.toText url) "redirect omitted a valid Location")
  | some location =>
    match crate.join url location with
    | none => .error (.url location "invalid redirect Location")
    | some joined => checkedHttpsUrl crate (crate.toText joined)

def bearer (token : Text) : Text := "Bearer "++token

def send (request : Request crate) : Fetch crate Response :=
  call request >>= fun answer =>
    match answer with
    | none => fail (.transport (crate.toText request.url))
    | some response => pure response

/-- `followed` counts up to the limit in the source; here `left` counts down from it. -/
def getFollowing (redirects : ℕ) (accept : Option Text) :
    (left : ℕ) → crate.Url → (authorization : Option Text) → Fetch crate Response
  | 0, url, authorization => do
    let response ← send crate ⟨url,accept,authorization.map bearer⟩
    if response.isRedirection then fail (.limit "redirect count" redirects) else pure response
  | left+1, url, authorization => do
    let response ← send crate ⟨url,accept,authorization.map bearer⟩
    if response.isRedirection then do
      let redirect ← .done (redirectTarget crate url response)
      getFollowing redirects accept left redirect
        (if sameOrigin crate url redirect then authorization else none)
    else pure response

def Accepted (url : crate.Url) : Prop := ∃ value, checkedHttpsUrl crate value = .ok url

/-- Scheme, host without regard to case, and effective port. -/
def SharesOrigin (left right : crate.Url) : Prop :=
  crate.scheme left = crate.scheme right ∧
    (crate.hostStr left).map toAsciiLowercase = (crate.hostStr right).map toAsciiLowercase ∧
    crate.portOrKnownDefault left = crate.portOrKnownDefault right

variable {crate} {start url : crate.Url} {auth token accept : Option Text}
variable {h : Conversation (@Answer crate)}

/-- What the check leaves of its input: every condition it makes, on the URL it returns. -/
theorem checkedHttpsUrl_eq_ok {v : Text} (hok : checkedHttpsUrl crate v = .ok url) :
    crate.parse v = .ok url ∧ crate.scheme url = "https" ∧
      ∃ hst, crate.hostStr url = some hst ∧ privateName (toAsciiLowercase hst) = false ∧
        privateIp (toAsciiLowercase hst) = false := by
  unfold checkedHttpsUrl at hok
  cases hp : crate.parse v with
  | error reason =>
    rw [hp] at hok
    cases hok
  | ok pd =>
    simp only [hp] at hok
    split_ifs at hok with hs hc
    cases hh : crate.hostStr pd with
    | none =>
      rw [hh] at hok
      cases hok
    | some hst =>
      simp only [hh] at hok
      split_ifs at hok with hpr
      cases hok
      rw [Bool.or_eq_true,not_or,Bool.not_eq_true,Bool.not_eq_true] at hpr
      exact ⟨rfl,not_not.mp hs,hst,hh,hpr⟩

theorem Accepted.scheme (ha : Accepted crate url) : crate.scheme url = "https" := by
  obtain ⟨v,hok⟩ := ha
  exact (checkedHttpsUrl_eq_ok hok).2.1

variable {resp : Response}

theorem redirectTarget_eq_ok {redirect : crate.Url}
    (hok : redirectTarget crate url resp = .ok redirect) :
    ∃ location joined, resp.location = some location ∧ crate.join url location = some joined ∧
      checkedHttpsUrl crate (crate.toText joined) = .ok redirect := by
  unfold redirectTarget at hok
  cases hl : resp.location with
  | none =>
    rw [hl] at hok
    cases hok
  | some location =>
    simp only [hl] at hok
    cases hj : crate.join url location with
    | none =>
      rw [hj] at hok
      cases hok
    | some joined =>
      rw [hj] at hok
      exact ⟨location,joined,rfl,hj,hok⟩

theorem redirectTarget_accepted {redirect : crate.Url}
    (hok : redirectTarget crate url resp = .ok redirect) : Accepted crate redirect := by
  obtain ⟨_,joined,_,_,hc⟩ := redirectTarget_eq_ok hok
  exact ⟨crate.toText joined,hc⟩

theorem sharesOrigin_refl (url : crate.Url) : SharesOrigin crate url url := ⟨rfl,rfl,rfl⟩

theorem SharesOrigin.trans {next : crate.Url} (hf : SharesOrigin crate start url)
    (hs : SharesOrigin crate url next) : SharesOrigin crate start next :=
  ⟨hf.1.trans hs.1,hf.2.1.trans hs.2.1,hf.2.2.trans hs.2.2⟩

theorem sharesOrigin_of_sameOrigin {left right : crate.Url}
    (hs : sameOrigin crate left right = true) : SharesOrigin crate left right := by
  simp only [sameOrigin,Bool.and_eq_true,beq_iff_eq,Option.any_eq_true] at hs
  obtain ⟨⟨hsc,hst,hh,other,ho,he⟩,hp⟩ := hs
  have hl : toAsciiLowercase hst = toAsciiLowercase other := by
    simpa [eqIgnoreAsciiCase] using he
  refine ⟨hsc,?_,hp⟩
  rw [hh,ho,Option.map_some,Option.map_some,hl]

/-- The requests of one chain: the first goes to the starting URL, the later ones to checked
URLs, and a request with credentials has only requests to the origin up to it. -/
structure Confined (start : crate.Url) (h : Conversation (@Answer crate)) : Prop where
  first : Throughout (fun before e => before = [] → e.1.url = start) h
  later : Throughout (fun before e => before ≠ [] → Accepted crate e.1.url) h
  kept : Throughout (fun before e => e.1.authorization ≠ none →
    ∀ e' ∈ before++[e], SharesOrigin crate start e'.1.url) h

/-- The chain is about to request this URL with these credentials. -/
structure Reaches (start : crate.Url) (h : Conversation (@Answer crate)) (url : crate.Url)
    (authorization : Option Text) : Prop where
  confined : Confined start h
  first : h = [] → url = start
  later : h ≠ [] → Accepted crate url
  kept : authorization ≠ none →
    SharesOrigin crate start url ∧ ∀ e ∈ h, SharesOrigin crate start e.1.url

theorem reaches_start (start : crate.Url) (token : Option Text) : Reaches start [] start token where
  confined := ⟨throughout_nil,throughout_nil,throughout_nil⟩
  first := fun _ => rfl
  later := fun hne => absurd rfl hne
  kept := fun _ => ⟨sharesOrigin_refl start,fun _ he => absurd he List.not_mem_nil⟩

section

variable (hre : Reaches start h url auth)
include hre

theorem Reaches.kept_concat (ha : auth ≠ none) (a : Option Response) :
    ∀ e ∈ h++[⟨⟨url,accept,auth.map bearer⟩,a⟩], SharesOrigin crate start e.1.url := by
  obtain ⟨hu,hb⟩ := hre.kept ha
  intro e he
  rcases List.mem_append.mp he with he | he
  · exact hb e he
  · rw [List.mem_singleton.mp he]
    exact hu

theorem Reaches.confined_concat (accept : Option Text) (a : Option Response) :
    Confined start (h++[⟨⟨url,accept,auth.map bearer⟩,a⟩]) where
  first := throughout_concat.mpr ⟨hre.confined.first,hre.first⟩
  later := throughout_concat.mpr ⟨hre.confined.later,hre.later⟩
  kept := by
    rw [throughout_concat]
    refine ⟨hre.confined.kept,fun hc => ?_⟩
    apply hre.kept_concat
    intro hn
    apply hc
    rw [hn,Option.map_none]

/-- One redirection: the token survives only a step inside the origin of the step before, and
that origin is the first one as long as the token is there. -/
theorem Reaches.redirect {rd : crate.Url} (hok : redirectTarget crate url resp = .ok rd) :
    Reaches start (h++[⟨⟨url,accept,auth.map bearer⟩,some resp⟩]) rd
      (if sameOrigin crate url rd then auth else none) where
  confined := hre.confined_concat _ _
  first := fun hn => absurd hn (List.concat_ne_nil _ _)
  later := fun _ => redirectTarget_accepted hok
  kept := by
    intro hc
    by_cases hs : sameOrigin crate url rd
    · rw [if_pos hs] at hc
      have hu := (hre.kept hc).1
      exact ⟨hu.trans (sharesOrigin_of_sameOrigin hs),hre.kept_concat hc _⟩
    · rw [if_neg hs] at hc
      exact absurd rfl hc

end

theorem ensures_send {req : Request crate} {I : Response → Conversation (@Answer crate) → Prop}
    {F : FeatureSourceError → Conversation (@Answer crate) → Prop}
    (hI : ∀ resp, I resp (h++[⟨req,some resp⟩]))
    (hF : ∀ e, F e (h++[⟨req,none⟩])) : Ensures I F (send crate req) h := by
  unfold send
  rw [ensures_bind,ensures_call]
  intro a
  cases a with
  | none => exact hF _
  | some resp => exact hI resp

/-- The run: what is left of the limit bounds what is still to be sent. -/
theorem ensures_getFollowing {redirects left : ℕ} (hre : Reaches start h url auth)
    (hl : h.length+left = redirects) :
    Ensures (fun _ h' => Confined start h' ∧ h'.length ≤ redirects+1)
      (fun _ h' => Confined start h' ∧ h'.length ≤ redirects+1)
      (getFollowing crate redirects accept left url auth) h := by
  induction left generalizing h url auth with
  | zero =>
    have hs := hre.confined_concat accept
    rw [getFollowing,ensures_bind]
    apply ensures_send
    · intro resp
      split_ifs
      all_goals exact ⟨hs _,by simp; omega⟩
    · intro e
      exact ⟨hs _,by simp; omega⟩
  | succ left ih =>
    have hs := hre.confined_concat accept
    rw [getFollowing,ensures_bind]
    apply ensures_send
    · intro resp
      split_ifs
      · rw [ensures_bind]
        cases hok : redirectTarget crate url resp with
        | error e => exact ⟨hs _,by simp; omega⟩
        | ok rd => exact ih (hre.redirect hok) (by simp; omega)
      · exact ⟨hs _,by simp; omega⟩
    · intro e
      exact ⟨hs _,by simp; omega⟩

/-- Whatever the servers answer, one call sends at most one request more than its limit. The
first goes to the URL it is given and every later one to a checked `https` URL, so that all
are checked if the first is. A request that carries credentials shares its origin, as all
before it do, with the starting URL. -/
theorem getFollowing_confined (crate : HttpCrate) (redirects : ℕ) (accept token : Option Text)
    (start : crate.Url) (outside : Outside (@Answer crate)) :
    let h := (talk outside (getFollowing crate redirects accept redirects start token) []).2
    h.length ≤ redirects+1 ∧ Throughout (fun bef e => (bef = [] → e.1.url = start) ∧
        (bef ≠ [] → Accepted crate e.1.url ∧ crate.scheme e.1.url = "https") ∧
        (Accepted crate start → Accepted crate e.1.url ∧ crate.scheme e.1.url = "https") ∧
        (e.1.authorization ≠ none → ∀ e' ∈ bef++[e], SharesOrigin crate start e'.1.url)) h := by
  intro h
  have hr : Confined start h ∧ h.length ≤ redirects+1 :=
    Ensures.talk (P := fun _ h' => Confined start h' ∧ h'.length ≤ redirects+1) outside
      (ensures_getFollowing (reaches_start start token) (Nat.zero_add redirects))
  obtain ⟨hc,hle⟩ := hr
  refine ⟨hle,fun bef e aft hs => ?_⟩
  have hf := hc.first bef e aft hs
  have hl := hc.later bef e aft hs
  refine ⟨hf,fun hne => ⟨hl hne,(hl hne).scheme⟩,fun hst => ?_,hc.kept bef e aft hs⟩
  have ha : Accepted crate e.1.url := by
    by_cases hn : bef = []
    · rw [hf hn]
      exact hst
    · exact hl hn
  exact ⟨ha,ha.scheme⟩

inductive SampleUrl where
  | plain | manifest | tokens | mirror | dotted | unspecified
deriving DecidableEq

namespace SampleUrl

def scheme : SampleUrl → Text
  | plain => "http"
  | _ => "https"

def hostStr : SampleUrl → Text
  | plain | manifest => "registry.example"
  | tokens => "auth.example"
  | mirror => "cdn.example"
  | dotted => "localhost."
  | unspecified => "0.0.0.0"

def path : SampleUrl → Text
  | manifest => "/v2/a/manifests/1"
  | _ => "/feature.tgz"

def toText (url : SampleUrl) : Text := url.scheme++"://"++url.hostStr++url.path

def parse (value : Text) : Except Text SampleUrl :=
  match [plain,manifest,tokens,mirror,dotted,unspecified].find? fun url => url.toText = value with
  | some url => .ok url
  | none => .error "relative URL without a base"

end SampleUrl

def sampleUrls : HttpCrate where
  Url := SampleUrl
  parse := SampleUrl.parse
  username _ := []
  password _ := none
  hostStr url := some url.hostStr
  fragment _ := none
  setHost url host := if host = url.hostStr then some url else none
  toText := SampleUrl.toText
  scheme := SampleUrl.scheme
  portOrKnownDefault url := if url = .plain then some 80 else some 443
  join _ location := (SampleUrl.parse location).toOption
  query url _ _ := url
  statusText := decimal

/-- The starting URL itself is not checked: a call with an `http` URL requests it. -/
theorem getFollowing_plain :
    (talk (fun _ _ => none) (getFollowing sampleUrls 5 none 5 .plain none) []).2 =
        [⟨⟨SampleUrl.plain,none,none⟩,none⟩] ∧
      sampleUrls.scheme SampleUrl.plain ≠ "https" ∧
      ¬ Accepted sampleUrls SampleUrl.plain := by
  have hs : sampleUrls.scheme SampleUrl.plain ≠ "https" := by decide
  exact ⟨rfl,hs,fun ha => hs ha.scheme⟩

end Cdenv.FeatureHttp
