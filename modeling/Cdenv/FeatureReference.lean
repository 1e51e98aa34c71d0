import Cdenv.Fallible
import Cdenv.IpAddress
import Mathlib.Data.Prod.Lex

/-!
# Feature references and install identities

Reference normalization performs no input or output. The one library it calls is
the URL parser, which is a parameter of the model: an arbitrary record of the
operations the code uses. Everything else, the local and the registry forms, the
host screening and the resource-name cut, is the source's own scan.
-/
namespace Cdenv
open TextScan

inductive FeatureReference where
  | oci (value : Text)
  | https (value : Text)
  | localPath (value : Text)
deriving DecidableEq

inductive FeatureInstallIdentity where
  | ociDigest (value : Text)
  | httpsIntegrity (value : Text)
  | localPath (value : Text)
deriving DecidableEq

/-- The URL operations used by normalization, over an opaque URL type. -/
structure UrlCrate where
  Url : Type
  parse : Text → Except Text Url
  username : Url → Text
  (password hostStr fragment : Url → Option Text)
  setHost : Url → Text → Option Url
  toText : Url → Text

/-- `UnsupportedReference`: the rejected input and the reason. -/
structure UnsupportedReference where
  (reference reason : Text)

namespace FeatureReference

def rank : FeatureReference → ℕ ×ₗ Text
  | .oci v => toLex (0, v)
  | .https v => toLex (1, v)
  | .localPath v => toLex (2, v)

theorem rank_injective : Function.Injective rank := by
  intro a b h
  cases a <;> cases b <;> simp_all [rank]

instance : LinearOrder FeatureReference := LinearOrder.lift' rank rank_injective

def asStr : FeatureReference → Text
  | .oci v | .https v | .localPath v => v

/-- The text before the digest, cut at the first colon after its last slash. -/
def ociResourceName (value : Text) : Text :=
  let withoutDigest := untilFirst '@' value
  match rsplitOnce '/' withoutDigest with
  | some (before, last) => before++ '/'::untilFirst ':' last
  | none => withoutDigest.take 1++untilFirst ':' (withoutDigest.drop 1)

def resourceName : FeatureReference → Text
  | .oci v => ociResourceName v
  | .https v | .localPath v => v

def selector : FeatureReference → Text
  | .oci v => (stripPrefix (ociResourceName v) v).getD []
  | .https _ | .localPath _ => []

def unsupported {A : Type} (reference : Text) (reason : String) :
    Except UnsupportedReference A := .error ⟨reference,reason.toList⟩

def localParts (input : Text) : List Text → Except UnsupportedReference (List Text)
  | [] => .ok []
  | part::rest =>
    if part = [] ∨ part = ['.'] then localParts input rest
    else if part = ['.','.'] then
      unsupported input "local Feature escapes its configuration directory"
    else if '\x00' ∈ part ∨ '\\' ∈ part then
      unsupported input "local Feature path contains an unsupported component"
    else (localParts input rest).map (part :: ·)

def normalizeLocal (input : Text) : Except UnsupportedReference Text := do
  let parts ← localParts input ((input.drop 2).splitOn '/')
  if parts.isEmpty then unsupported input "local Feature path must name a directory"
  else .ok ("./"++List.intercalate ['/'] parts)

/-- `private_name`, which the parser of references and the check of URLs both compute. -/
def privateName (lowercase : Text) : Bool :=
  lowercase == "localhost" || ".localhost".toList.isSuffixOf lowercase ||
    ".local".toList.isSuffixOf lowercase || !lowercase.contains '.'

def privateIp (lowercase : Text) : Bool :=
  match IpAddr.parse lowercase with
  | some (.v4 octets) => IpAddr.isPrivate (.v4 octets) || IpAddr.isLoopback (.v4 octets) ||
      IpAddr.isLinkLocal (.v4 octets)
  | some (.v6 segments) => IpAddr.isLoopback (.v6 segments) ||
      IpAddr.isUniqueLocal (.v6 segments) || IpAddr.isLinkLocal (.v6 segments)
  | none => false

def rejectPrivateHost (reference host : Text) : Except UnsupportedReference Unit :=
  let lowercase := toAsciiLowercase host
  if privateName lowercase || privateIp lowercase then
    unsupported reference "private or local Feature endpoints are unsupported"
  else .ok ()

def validateSha256 (value : Text) : Except String Unit :=
  match stripPrefix "sha256:" value with
  | none => .error "digest must use SHA-256"
  | some hex =>
    if hex.length ≠ 64 ∨ !(hex.all fun c => c.isDigit || ('a' ≤ c && c ≤ 'f')) then
      .error "digest must contain 64 lowercase hexadecimal characters"
    else .ok ()

/-- A URL to a public host, the host in lower case. -/
def normalizeHttps (urls : UrlCrate) (input : Text) : Except UnsupportedReference Text := do
  let url ← match urls.parse input with
    | .ok url => .ok url
    | .error reason => .error ⟨input,reason⟩
  if urls.username url ≠ [] ∨ (urls.password url).isSome then
    unsupported input "Feature URL credentials are unsupported"
  else
    match urls.hostStr url with
    | none => unsupported input "Feature URL requires a public host"
    | some host => do
      rejectPrivateHost input host
      if (urls.fragment url).isSome then
        unsupported input "Feature URL fragments are unsupported"
      else
        match urls.setHost url (toAsciiLowercase host) with
        | none => unsupported input "Feature URL host is invalid"
        | some url => .ok (urls.toText url)

/-- Lowercase repository components: no empty part, a closed alphabet. -/
def validRepository (repository : Text) : Bool :=
  !repository.isEmpty && (repository.splitOn '/').all fun part =>
    !part.isEmpty && part.all fun c => c.isLower || c.isDigit || c == '.' || c == '_' || c == '-'

/-- The registry in lower case, and the default tag written out. -/
def normalizeOci (input : Text) : Except UnsupportedReference Text := do
  if input.isEmpty || input.any isWhitespace then
    unsupported input "OCI Feature reference is empty or contains whitespace"
  if input.contains '@' && !containsText "@sha256:" input then
    unsupported input "OCI credentials and non-SHA-256 digests are unsupported"
  let (nameAndTag, digest) := match splitOnce '@' input with
    | some (name, digest) => (name, some digest)
    | none => (input, none)
  match digest with
  | some digest =>
    match validateSha256 digest with
    | .error reason => unsupported input reason
    | .ok () => pure ()
  | none => pure ()
  match splitOnce '/' nameAndTag with
  | none => unsupported input "OCI Feature reference must be fully qualified"
  | some (registry, repositoryAndTag) => do
    rejectPrivateHost input (untilFirst ':' registry)
    if !(registry.contains '.' || registry.contains ':') then
      unsupported input "OCI Feature reference must include a registry host"
    let last := afterLast '/' repositoryAndTag
    let hasTag := last.contains ':'
    let repository :=
      if hasTag then ((rsplitOnce ':' repositoryAndTag).map Prod.fst).getD repositoryAndTag
      else repositoryAndTag
    if !validRepository repository then
      unsupported input "OCI repository must be lowercase and fully qualified"
    if hasTag && (rsplitOnce ':' last).any fun p => p.2.isEmpty then
      unsupported input "OCI Feature tag cannot be empty"
    let normalized := toAsciiLowercase registry++ '/'::repositoryAndTag
    let normalized :=
      if digest.isNone && !hasTag then normalized++":latest" else normalized
    match digest with
    | some digest => .ok (normalized++ '@'::digest)
    | none => .ok normalized

def parse (urls : UrlCrate) (input : Text) : Except UnsupportedReference FeatureReference :=
  if "./".toList.isPrefixOf input then (normalizeLocal input).map .localPath
  else if "https://".toList.isPrefixOf input then (normalizeHttps urls input).map .https
  else if containsText "://" input || "http:".toList.isPrefixOf input then
    unsupported input "Feature transport must use verified HTTPS"
  else (normalizeOci input).map .oci

open Fallible List

/-- The parts of a registry reference. -/
structure OciName where
  (registry repository : Text)
  (tag digest : Option Text)

namespace OciName

def tagged (n : OciName) : Text := n.repository++n.tag.elim [] (':' :: ·)

def name (n : OciName) : Text := n.registry++ '/'::n.tagged

def text (n : OciName) : Text := n.name++n.digest.elim [] ('@' :: ·)

/-- What `normalize_oci` asks of the parts. -/
structure Valid (n : OciName) : Prop where
  visible : ∀ c ∈ n.text, isWhitespace c = false
  registry : '/' ∉ n.registry ∧ '@' ∉ n.registry
  host : ∀ input, rejectPrivateHost input (untilFirst ':' n.registry) = .ok ()
  qualified : '.' ∈ n.registry ∨ ':' ∈ n.registry
  repository : validRepository n.repository = true
  tag : ∀ t ∈ n.tag, t ≠ [] ∧ '/' ∉ t ∧ '@' ∉ t ∧ ':' ∉ t
  digest : ∀ d ∈ n.digest, validateSha256 d = .ok ()

/-- The registry in lower case, and a tag where neither tag nor digest is given. -/
def canonical (n : OciName) : OciName where
  registry := toAsciiLowercase n.registry
  repository := n.repository
  tag := n.tag.or (if n.digest.isNone then some "latest".toList else none)
  digest := n.digest

end OciName

variable {n : OciName} {s : Text}

theorem rejectPrivateHost_ok {hst : Text} (h : rejectPrivateHost s hst = .ok ()) (inp : Text) :
    rejectPrivateHost inp hst = .ok () := by
  unfold rejectPrivateHost at h ⊢
  dsimp only at h ⊢
  split_ifs at h ⊢
  · cases h
  · rfl

theorem not_mem_repository (h : validRepository s = true) {c : Char} (hc : c ≠ '/')
    (hn : (c.isLower || c.isDigit || c == '.' || c == '_' || c == '-') = false) : c ∉ s := by
  intro hm
  obtain ⟨-,ha⟩ := Bool.and_eq_true_iff.mp h
  obtain ⟨p,hp,hm⟩ := (mem_splitOn hc).mpr hm
  have hl := all_eq_true.mp (Bool.and_eq_true_iff.mp (all_eq_true.mp ha p hp)).2 c hm
  rw [hn] at hl
  cases hl

theorem head_repository (h : validRepository s = true) : ∃ c t, s = c::t ∧ c ≠ '/' := by
  obtain ⟨hs,ha⟩ := Bool.and_eq_true_iff.mp h
  cases s with
  | nil => cases hs
  | cons c t =>
    refine ⟨c,t,rfl,?_⟩
    rintro rfl
    have hp := all_eq_true.mp ha [] (by rw [splitOn_cons_eq_if_modifyHead]; simp)
    cases hp

theorem sha256_of_validate (h : validateSha256 s = .ok ()) :
    ∃ hex : Text, s = "sha256:"++hex ∧ '/' ∉ hex := by
  unfold validateSha256 stripPrefix at h
  split_ifs at h with hp
  · obtain ⟨hex,rfl⟩ := isPrefixOf_iff_prefix.mp hp
    dsimp only at h
    split_ifs at h with hx
    refine ⟨hex,rfl,fun hm => hx (.inr ?_)⟩
    rw [Bool.not_eq_true',all_eq_false]
    exact ⟨'/',hm,by decide⟩

namespace OciName

theorem Valid.not_mem_tagged (h : n.Valid) : '@' ∉ n.tagged := by
  have hr := not_mem_repository h.repository (c := '@') (by decide) (by decide)
  have ht := h.tag
  cases hn : n.tag <;> simp_all [tagged]

theorem Valid.not_mem_name (h : n.Valid) : '@' ∉ n.name := by
  simp [name,h.registry.2,h.not_mem_tagged]

/-- The last part of the tagged repository has a colon where there is a tag. -/
theorem Valid.afterLast_tagged (h : n.Valid) :
    afterLast '/' n.tagged = afterLast '/' n.repository++n.tag.elim [] (':' :: ·) := by
  apply afterLast_append
  have ht := h.tag
  cases hn : n.tag <;> simp_all

theorem Valid.normalizeOci_text (h : n.Valid) : normalizeOci n.text = .ok n.canonical.text := by
  have h₁ : (n.text.isEmpty || n.text.any isWhitespace) = false := by
    have hv : n.text.any isWhitespace = false := by simpa using h.visible
    rw [hv,Bool.or_false,isEmpty_eq_false_iff]
    simp [text,name]
  have h₂ : (n.text.contains '@' && !containsText "@sha256:" n.text) = false := by
    cases hd : n.digest with
    | none => simp [text,hd,h.not_mem_name]
    | some d =>
      have hc : containsText "@sha256:" n.text = true := by
        obtain ⟨t,rfl,-⟩ := sha256_of_validate (h.digest d hd)
        exact containsText_iff.mpr ⟨n.name,t,by simp [text,hd]⟩
      rw [hc,Bool.not_true,Bool.and_false]
  have h₃ : splitOnce '@' n.text = n.digest.map (n.name, ·) := by
    cases hd : n.digest with
    | none => simp [text,hd,splitOnce_eq_none,h.not_mem_name]
    | some d => simp [text,hd,splitOnce_append _ h.not_mem_name]
  have h₄ : splitOnce '/' n.name = some (n.registry, n.tagged) := splitOnce_append _ h.registry.1
  have hc : ':' ∉ n.repository := not_mem_repository h.repository (by decide) (by decide)
  have hl : ':' ∉ afterLast '/' n.repository := fun hm => hc ((isSuffix_afterLast _ _).subset hm)
  have h₅ : (afterLast '/' n.tagged).contains ':' = n.tag.isSome := by
    rw [h.afterLast_tagged]
    cases n.tag <;> simp [hl]
  have h₆ : (if n.tag.isSome = true then ((rsplitOnce ':' n.tagged).map Prod.fst).getD n.tagged
      else n.tagged) = n.repository := by
    cases hn : n.tag with
    | none => simp [tagged,hn]
    | some t => simp [tagged,hn,rsplitOnce_append _ (h.tag t hn).2.2.2]
  have h₇ : (n.tag.isSome && (rsplitOnce ':' (afterLast '/' n.tagged)).any
      fun p => p.2.isEmpty) = false := by
    rw [h.afterLast_tagged]
    cases hn : n.tag with
    | none => rfl
    | some t => simp [rsplitOnce_append _ (h.tag t hn).2.2.2,(h.tag t hn).1]
  have h₈ : (!(n.registry.contains '.' || n.registry.contains ':')) = false := by
    simpa [or_iff_not_imp_left] using h.qualified
  unfold normalizeOci
  rw [if_neg (Bool.eq_false_iff.mp h₁),if_neg (Bool.eq_false_iff.mp h₂),h₃]
  cases hd : n.digest with
  | none =>
    have ht : n.text = n.name := by simp [text,hd]
    simp only [Option.map_none,ht,h₄,h.host,h₈,h₅,h₆,h.repository,h₇]
    cases hn : n.tag <;> simp [text,name,tagged,canonical,hd,hn] <;> rfl
  | some d =>
    simp only [Option.map_some,h.digest d hd,h₄,h.host,h₈,h₅,h₆,h.repository,h₇]
    cases hn : n.tag <;> simp [text,name,tagged,canonical,hd,hn] <;> rfl

end OciName

theorem of_guard {α β : Type} {c : Prop} [Decidable c] {e : UnsupportedReference} {v : β}
    {f : α → Except UnsupportedReference β} {x : Except UnsupportedReference β}
    (h : (if c then .error e >>= f else x) = .ok v) : ¬c ∧ x = .ok v := by
  split_ifs at h with hc
  · cases h
  · exact ⟨hc,h⟩

theorem of_digest {inp v : Text} {dg : Option Text} {x : Unit → Except UnsupportedReference Text}
    (h : (match dg with
      | some d =>
        match validateSha256 d with
        | .error reason => unsupported inp reason >>= x
        | .ok () => x ()
      | none => x ()) = .ok v) : (∀ d ∈ dg, validateSha256 d = .ok ()) ∧ x () = .ok v := by
  cases dg with
  | none => exact ⟨nofun,h⟩
  | some d =>
    cases hd : validateSha256 d with
    | error reason =>
      simp only [hd] at h
      cases h
    | ok =>
      simp only [hd] at h
      exact ⟨fun _ he => Option.some.inj he ▸ hd,h⟩

/-- The text behind the last slash is a tagged name, or a name. -/
theorem exists_tag {rt : Text} (hr : validRepository (if (afterLast '/' rt).contains ':' = true then
      ((rsplitOnce ':' rt).map Prod.fst).getD rt else rt) = true)
    (ht : ¬((afterLast '/' rt).contains ':' &&
      (rsplitOnce ':' (afterLast '/' rt)).any fun p => p.2.isEmpty) = true) :
    ∃ n : OciName, rt = n.tagged ∧ validRepository n.repository = true ∧
      ∀ t ∈ n.tag, t ≠ [] ∧ '/' ∉ t ∧ ':' ∉ t := by
  by_cases hc : (afterLast '/' rt).contains ':' = true
  · rw [if_pos hc] at hr
    obtain ⟨a,b,hl,hn⟩ := exists_last (contains_iff_mem.mp hc)
    obtain ⟨pre,hp⟩ := isSuffix_afterLast '/' rt
    rw [hl,← append_assoc] at hp
    rw [← hp,rsplitOnce_append _ hn] at hr
    rw [hl,rsplitOnce_append _ hn] at ht
    refine ⟨⟨[],pre++a,some b,none⟩,hp.symm,hr,?_⟩
    rintro t ⟨⟩
    refine ⟨by simpa using ht,fun hs => ?_,hn⟩
    have hm : '/' ∈ afterLast '/' rt := by simp_all
    exact absurd (mem_takeWhile_imp (mem_reverse.mp hm)) (by decide)
  · rw [if_neg hc] at hr
    exact ⟨⟨[],rt,none,none⟩,(append_nil rt).symm,hr,nofun⟩

theorem valid_of_normalizeOci {inp v : Text} (h : normalizeOci inp = .ok v) :
    ∃ n : OciName, n.Valid ∧ inp = n.text := by
  obtain ⟨hv,h⟩ := of_guard h
  replace h := (of_guard h).2
  obtain ⟨⟨nm,dg⟩,hp,rfl,hat⟩ : ∃ p : Text × Option Text, (match splitOnce '@' inp with
      | some (nm, dg) => (nm, some dg)
      | none => (inp, none)) = p ∧ p.1++p.2.elim [] ('@' :: ·) = inp ∧ '@' ∉ p.1 := by
    refine ⟨_,rfl,?_⟩
    cases hs : splitOnce '@' inp with
    | none => exact ⟨append_nil _,splitOnce_eq_none.mp hs⟩
    | some p => exact (splitOnce_spec hs).imp_left Eq.symm
  rw [hp] at h
  obtain ⟨hd,h⟩ := of_digest h
  split at h
  · cases h
  next registry rt hs =>
    obtain ⟨u,hh,h⟩ := bind_eq_ok.mp h
    obtain ⟨hq,h⟩ := of_guard h
    obtain ⟨hr,h⟩ := of_guard h
    obtain ⟨n,rfl,hre,hta⟩ := exists_tag (by simpa using hr) (of_guard h).1
    obtain ⟨rfl,hsl⟩ := splitOnce_spec hs
    rw [mem_append,mem_cons,not_or,not_or] at hat
    refine ⟨⟨registry,n.repository,n.tag,dg⟩,⟨?_,⟨hsl,hat.1⟩,rejectPrivateHost_ok hh,?_,hre,?_,hd⟩,rfl⟩
    · simp only [Bool.or_eq_true,not_or,any_eq_true,not_exists,not_and,Bool.not_eq_true] at hv
      exact hv.2
    · simpa [or_iff_not_imp_left] using hq
    · intro t ht
      refine ⟨(hta t ht).1,(hta t ht).2.1,fun hm => hat.2.2 ?_,(hta t ht).2.2⟩
      rw [OciName.tagged,Option.mem_def.mp ht]
      simp [hm]

theorem isWhitespace_toLower {c : Char} (h : isWhitespace c = false) :
    isWhitespace c.toLower = false := by
  rcases toLower_cases c with hc | hc
  · rwa [hc]
  · unfold Char.isLower at hc
    simp [isWhitespace,UInt32.le_iff_toNat_le] at hc ⊢
    omega

theorem untilFirst_toAsciiLowercase (s : Text) :
    untilFirst ':' (toAsciiLowercase s) = toAsciiLowercase (untilFirst ':' s) := by
  unfold untilFirst toAsciiLowercase
  rw [takeWhile_map]
  congr 2
  funext c
  rw [Function.comp_apply,Bool.eq_iff_iff,bne_iff_ne,bne_iff_ne]
  refine not_congr ⟨fun h => eq_of_toLower h (by decide),?_⟩
  rintro rfl
  rfl

namespace OciName

theorem canonical_canonical (n : OciName) : n.canonical.canonical = n.canonical := by
  obtain ⟨registry,repo,tag,dg⟩ := n
  simp only [canonical,toAsciiLowercase_idem]
  cases tag <;> cases dg <;> rfl

theorem Valid.canonical (h : n.Valid) : n.canonical.Valid where
  visible := by
    have hv := h.visible
    have hl : ∀ c ∈ ":latest".toList, isWhitespace c = false := all_iff_forall_prop.mp (by decide)
    intro c hc
    simp only [text,name,tagged,mem_append,mem_cons] at hv hc
    rcases hc with (hc | rfl | hc | hc) | hc
    · obtain ⟨d,hd,rfl⟩ := mem_map.mp hc
      exact isWhitespace_toLower (hv d (.inl (.inl hd)))
    · rfl
    · exact hv c (.inl (.inr (.inr (.inl hc))))
    · obtain ⟨registry,repository,_ | tag,_ | digest⟩ := n
      · exact hl c hc
      · cases hc
      all_goals exact hv c (.inl (.inr (.inr (.inr hc))))
    · exact hv c (.inr hc)
  registry := ⟨mt (mem_toAsciiLowercase (by decide)).mp h.registry.1,
    mt (mem_toAsciiLowercase (by decide)).mp h.registry.2⟩
  host input := by
    have hh := h.host input
    change rejectPrivateHost input (untilFirst ':' (toAsciiLowercase n.registry)) = _
    unfold rejectPrivateHost at hh ⊢
    rwa [untilFirst_toAsciiLowercase,toAsciiLowercase_idem]
  qualified := h.qualified.imp (mem_toAsciiLowercase (by decide)).mpr
    (mem_toAsciiLowercase (by decide)).mpr
  repository := h.repository
  tag := by
    have ht := h.tag
    obtain ⟨registry,repository,_ | tag,_ | digest⟩ := n
    · rintro t ⟨⟩
      decide
    · exact nofun
    all_goals exact ht
  digest := h.digest

/-- The cut for the resource name finds the repository's end, also behind a port. -/
theorem Valid.ociResourceName (h : n.Valid) :
    FeatureReference.ociResourceName n.text = n.registry++ '/'::n.repository := by
  have hd : untilFirst '@' n.text = n.name := by
    rw [text,untilFirst_append h.not_mem_name]
    cases n.digest <;> simp [untilFirst]
  obtain ⟨a,b,hab,hb⟩ := exists_last (show '/' ∈ n.registry++ '/'::n.repository by simp)
  have hc : ':' ∉ n.repository := not_mem_repository h.repository (by decide) (by decide)
  have ha : ':' ∉ b := by
    rcases append_eq_append_iff.mp hab with ⟨_ | ⟨x,c⟩,hp,he⟩ | ⟨_ | ⟨x,c⟩,hp,he⟩
    all_goals simp_all
  have hs : rsplitOnce '/' n.name = some (a, b++n.tag.elim [] (':' :: ·)) := by
    rw [name,tagged,← cons_append,← append_assoc,hab,append_assoc,cons_append,rsplitOnce_append]
    have ht := h.tag
    cases hn : n.tag <;> simp_all
  rw [FeatureReference.ociResourceName,hd,hs,hab]
  dsimp only
  rw [untilFirst_append ha]
  cases n.tag <;> simp [untilFirst]

theorem Valid.not_mem_suffix (h : n.Valid) :
    '/' ∉ n.tag.elim [] (':' :: ·)++n.digest.elim [] ('@' :: ·) := by
  have ht := h.tag
  have hd : ∀ d ∈ n.digest, '/' ∉ d := by
    intro d hd
    obtain ⟨hex,rfl,hn⟩ := sha256_of_validate (h.digest d hd)
    simp [hn]
  cases hn : n.tag <;> cases hg : n.digest <;> simp_all

theorem Valid.not_infix (h : n.Valid) : ¬ [':','/','/'] <:+: n.text := by
  rintro ⟨a,b,hab⟩
  have hc : ':' ∉ n.repository := not_mem_repository h.repository (by decide) (by decide)
  have hs := h.not_mem_suffix
  obtain ⟨x,s,hx,hne⟩ := head_repository h.repository
  simp only [text,name,tagged,append_assoc,cons_append,nil_append] at hab
  rcases append_eq_append_iff.mp hab with ⟨_ | ⟨y,_ | ⟨z,c⟩⟩,hp,he⟩ | ⟨_ | ⟨y,c⟩,hp,he⟩
  · cases he
  · rw [hx] at he
    simp only [cons_append,nil_append,cons.injEq,true_and] at he
    exact hne he.2.1.symm
  · obtain ⟨-,hz⟩ := cons.inj he
    obtain ⟨rfl,-⟩ := cons.inj hz
    exact h.registry.1 (hp ▸ by simp)
  · cases he
  · rw [cons_append,cons.injEq] at he
    rcases append_eq_append_iff.mp he.2 with ⟨e,hp,he⟩ | ⟨_ | ⟨z,e⟩,hp,he⟩
    · exact hs (he ▸ by simp)
    · exact hs (he ▸ by simp)
    · obtain ⟨rfl,-⟩ := cons.inj he
      exact hc (hp ▸ by simp)

theorem Valid.parse (h : n.Valid) (urls : UrlCrate) (hd : n.registry ≠ ['.']) :
    FeatureReference.parse urls n.text = (normalizeOci n.text).map .oci := by
  have h₁ : ¬ "./".toList.isPrefixOf n.text = true := by
    intro hp
    obtain ⟨s,hs⟩ := isPrefixOf_iff_prefix.mp hp
    rcases hn : n.registry with _ | ⟨x,_ | ⟨y,c⟩⟩
    all_goals simp [text,name,hn] at hs
    · exact hd (hs.1 ▸ hn)
    · exact h.registry.1 (hn ▸ hs.2.1 ▸ by simp)
  have h₂ : ¬ "https://".toList.isPrefixOf n.text = true := by
    intro hp
    obtain ⟨s,hs⟩ := isPrefixOf_iff_prefix.mp hp
    exact h.not_infix ⟨"https",s,hs⟩
  have h₃ : ¬ "http:".toList.isPrefixOf n.text = true := by
    intro hp
    obtain ⟨s,hs⟩ := isPrefixOf_iff_prefix.mp hp
    have hh := h.host []
    rw [text,name,append_assoc,cons_append] at hs
    rcases append_eq_append_iff.mp hs with ⟨c,hc,-⟩ | ⟨_ | ⟨x,c⟩,hc,he⟩
    · rw [hc] at hh
      cases hh
    · rw [← append_nil n.registry,← hc] at hh
      cases hh
    · rw [cons_append,cons.injEq] at he
      have hm : '/' ∈ "http:".toList := hc ▸ he.1 ▸ by simp
      exact absurd hm (by decide)
  rw [FeatureReference.parse,if_neg h₁,if_neg h₂,if_neg]
  rw [Bool.or_eq_true,containsText_iff,not_or]
  exact ⟨h.not_infix,h₃⟩

end OciName

theorem localParts_kept {inp : Text} {l parts : List Text} (h : localParts inp l = .ok parts) :
    ∀ pt ∈ parts, pt ∈ l ∧ ∀ inp rs,
      localParts inp (pt::rs) = (localParts inp rs).map (pt :: ·) := by
  induction l generalizing parts with
  | nil =>
    cases h
    exact nofun
  | cons pt l ih =>
    simp only [localParts] at h
    split_ifs at h with h₁ h₂ h₃
    · exact fun p hp => (ih h p hp).imp_left (mem_cons_of_mem _)
    · cases h
    · cases h
    · obtain ⟨xs,hx,rfl⟩ := map_eq_ok.mp h
      intro p hp
      rcases mem_cons.mp hp with rfl | hp
      · exact ⟨mem_cons_self,fun inp rs => by rw [localParts,if_neg h₁,if_neg h₂,if_neg h₃]⟩
      · exact (ih hx p hp).imp_left (mem_cons_of_mem _)

theorem normalizeLocal_idem {inp v : Text} (h : normalizeLocal inp = .ok v) :
    "./".toList <+: v ∧ normalizeLocal v = .ok v := by
  obtain ⟨parts,hp,hv⟩ := bind_eq_ok.mp h
  clear h
  split_ifs at hv with he
  · cases hv
  cases hv
  refine ⟨prefix_append _ _,?_⟩
  have hk := localParts_kept hp
  have hs : (['/'].intercalate parts).splitOn '/' = parts := splitOn_intercalate '/'
    (fun pt hm => not_mem_of_mem_splitOn (hk pt hm).1) (mt isEmpty_iff.mpr he)
  have hl : ∀ inp, localParts inp parts = .ok parts := by
    intro inp
    clear hp he hs
    induction parts with
    | nil => rfl
    | cons pt parts ih =>
      rw [(hk pt mem_cons_self).2,ih fun p hm => hk p (mem_cons_of_mem _ hm)]
      rfl
  change (localParts _ ((['/'].intercalate parts).splitOn '/') >>= _) = _
  rw [hs,hl]
  exact if_neg he

theorem isPrefix_ociResourceName (value : Text) : ociResourceName value <+: value := by
  have hd : untilFirst '@' value <+: value := takeWhile_prefix _
  refine List.IsPrefix.trans ?_ hd
  unfold ociResourceName
  dsimp only
  cases hs : rsplitOnce '/' (untilFirst '@' value) with
  | none =>
    have ht : untilFirst ':' ((untilFirst '@' value).drop 1) <+:
        (untilFirst '@' value).drop 1 := takeWhile_prefix _
    obtain ⟨xs,hr⟩ := ht
    refine ⟨xs,?_⟩
    rw [append_assoc,hr,take_append_drop]
  | some parts =>
    rw [rsplitOnce_spec hs]
    exact prefix_append_right_inj _ |>.mpr (cons_prefix_cons.mpr ⟨rfl, takeWhile_prefix _⟩)

theorem asStr_eq (r : FeatureReference) : r.resourceName++r.selector = r.asStr := by
  cases r with
  | oci v =>
    obtain ⟨xs,hr⟩ := isPrefix_ociResourceName v
    have hs := stripPrefix_append (ociResourceName v) xs
    rw [hr] at hs
    simp only [resourceName,selector,asStr,hs,Option.getD_some,hr]
  | https v | localPath v => exact append_nil v

theorem parse_canonical (urls : UrlCrate) (inp : Text) (r : FeatureReference)
    (h : parse urls inp = .ok r) (hr : ∀ v, r ≠ .https v) :
    parse urls r.asStr = .ok r ∧ r.resourceName++r.selector = r.asStr ∧
      ∀ v, r = .oci v → ∃ n : OciName, n.Valid ∧ v = n.text ∧
        r.resourceName = n.registry++ '/'::n.repository ∧
        ∀ n' : OciName, n'.Valid → n'.registry = n.registry → n'.repository = n.repository →
          (FeatureReference.oci n'.text).resourceName = r.resourceName := by
  unfold parse at h
  split_ifs at h with h₁ h₂ h₃
  · obtain ⟨v,hv,rfl⟩ := map_eq_ok.mp h
    obtain ⟨hl,hi⟩ := normalizeLocal_idem hv
    refine ⟨?_,asStr_eq _,nofun⟩
    change parse urls v = _
    rw [parse,if_pos ( isPrefixOf_iff_prefix.mpr hl),hi]
    rfl
  · obtain ⟨v,-,rfl⟩ := map_eq_ok.mp h
    exact absurd rfl (hr v)
  · cases h
  · obtain ⟨v,hv,rfl⟩ := map_eq_ok.mp h
    obtain ⟨n,hn,rfl⟩ := valid_of_normalizeOci hv
    rw [hn.normalizeOci_text] at hv
    cases hv
    have hc := hn.canonical
    refine ⟨?_,asStr_eq _,?_⟩
    · change parse urls n.canonical.text = _
      rw [hc.parse urls,hc.normalizeOci_text,OciName.canonical_canonical]
      · rfl
      · intro hd
        obtain ⟨c,hs,hl⟩ := map_eq_singleton_iff.mp hd
        cases eq_of_toLower hl (by decide)
        exact h₁ ( isPrefixOf_iff_prefix.mpr (by simp [OciName.text,OciName.name,hs]))
    · rintro v ⟨⟩
      refine ⟨n.canonical,hc,rfl,hc.ociResourceName,fun n' hn' hr hp => ?_⟩
      change ociResourceName n'.text = ociResourceName _
      rw [hn'.ociResourceName,hc.ociResourceName,hr,hp]

def sampleUrls : UrlCrate :=
  ⟨Unit,fun _ => .error [],fun _ => [],fun _ => none,fun _ => none,fun _ => none,fun _ _ => none,
    fun _ => []⟩

theorem parse_canonical_port :
    parse sampleUrls "Ghcr.io:443/a/b" = .ok (.oci "ghcr.io:443/a/b:latest") ∧
      parse sampleUrls "ghcr.io:443/a/b:latest" = .ok (.oci "ghcr.io:443/a/b:latest") :=
  have h : parse sampleUrls "Ghcr.io:443/a/b" = .ok (.oci "ghcr.io:443/a/b:latest") := rfl
  ⟨h,(parse_canonical _ _ _ h nofun).1⟩

end FeatureReference

namespace FeatureInstallIdentity

def rank : FeatureInstallIdentity → ℕ ×ₗ Text
  | .ociDigest v => toLex (0, v)
  | .httpsIntegrity v => toLex (1, v)
  | .localPath v => toLex (2, v)

theorem rank_injective : Function.Injective rank := by
  intro a b h
  cases a <;> cases b <;> simp_all [rank]

instance : LinearOrder FeatureInstallIdentity := LinearOrder.lift' rank rank_injective

/-- `identity_label`: the bare digest, integrity or path. -/
def label : FeatureInstallIdentity → Text
  | .ociDigest v | .httpsIntegrity v | .localPath v => v

end FeatureInstallIdentity
end Cdenv
