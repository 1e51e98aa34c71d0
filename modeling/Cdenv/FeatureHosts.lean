import Cdenv.FeatureRegistry

/-!
# Which hosts the resolver reaches

The check of a URL reads the text of its host. How the URL library prints a host is what is
assumed of it here. An address then reads back as itself, so the check decides by the
address, and an IPv6 host, printed in brackets and without a dot, never passes.

What the check does not see are two kinds of host: a local name that is written with its
trailing dot, and the unspecified IPv4 address. A resolution reaches a host of this machine
or of the local network just where the reference or an answer spells one of these.
-/
namespace Cdenv.FeatureHosts
open TextScan Interaction Interaction.Program FeatureHttp FeatureRegistry List
open FeatureReference (privateName privateIp)

/-- The URL library keeps a host as a name or as an address and prints it in one way only,
whatever spelling it was given. -/
inductive Host where
  | domain (name : Text)
  | ipv4 (a b c d : UInt8)
  | ipv6 (segments : Fin 8 → Fin 65536)

namespace Host

def octets (a b c d : UInt8) : List ℕ := [a.toNat,b.toNat,c.toNat,d.toNat]

def groups (segments : Fin 8 → Fin 65536) : List ℕ := List.ofFn fun i => (segments i).val

/-- The library's printer for IPv6: hexadecimal groups only, the first longest run of two or
more zero groups left out. -/
def printGroups (segments : List ℕ) : Text :=
  let (start, len) := IpAddr.zeroSpan segments 0 0 0 0 0
  if 1 < len then
    IpAddr.renderGroups (segments.take start)++[':',':'] ++
      IpAddr.renderGroups (segments.drop (start+len))
  else IpAddr.renderGroups segments

def print : Host → Text
  | domain name => name
  | ipv4 a b c d => IpAddr.renderOctets (octets a b c d)
  | ipv6 segments => '['::(printGroups (groups segments)++[']'])

/-- The root label that a trailing dot stands for is no part of the name. -/
def withoutDot (name : Text) : Text :=
  if name.getLast? = some '.' then name.dropLast else name

def isLocalName (name : Text) : Bool :=
  name == "localhost" || ".localhost".toList.isSuffixOf name ||
    ".local".toList.isSuffixOf name

/-- The hosts that are not to be reached. -/
def isLocal : Host → Bool
  | domain name => isLocalName (withoutDot (toAsciiLowercase name))
  | ipv4 a b c d =>
    let address := IpAddr.v4 (octets a b c d)
    IpAddr.isPrivate address || IpAddr.isLoopback address || IpAddr.isLinkLocal address ||
      octets a b c d == [0,0,0,0]
  | ipv6 segments =>
    let address := IpAddr.v6 (groups segments)
    IpAddr.isLoopback address || IpAddr.isUniqueLocal address || IpAddr.isLinkLocal address ||
      groups segments == [0,0,0,0,0,0,0,0]

/-- The local hosts that the check takes for public ones. -/
def isOverlooked : Host → Bool
  | domain name => (toAsciiLowercase name).getLast? == some '.' &&
      isLocalName (toAsciiLowercase name).dropLast
  | ipv4 a b c d => octets a b c d == [0,0,0,0]
  | ipv6 _ => false

theorem toAsciiLowercase_renderOctets (ns : List ℕ) :
    toAsciiLowercase (IpAddr.renderOctets ns) = IpAddr.renderOctets ns := by
  conv_rhs => rw [← map_id (IpAddr.renderOctets ns)]
  apply map_congr_left
  intro c hc
  by_cases hd : c = '.'
  · rw [hd]
    rfl
  · rw [IpAddr.renderOctets,mem_intercalate hd] at hc
    obtain ⟨pc,hp,hm⟩ := hc
    obtain ⟨n,_,rfl⟩ := mem_map.mp hp
    have hd := Nat.isDigit_of_mem_toDigits (by decide) (by decide) hm
    refine toLower_eq_self ?_
    unfold Char.isDigit Char.isUpper at *
    grind

theorem not_mem_toDigits (n : ℕ) : '.' ∉ Nat.toDigits 16 n := by
  induction n using Nat.strong_induction_on with
  | _ n ih =>
    have hd : ∀ d, '.' ≠ Nat.digitChar d := fun d => (Nat.digitChar_ne _ (by decide)).symm
    rw [Nat.toDigits_eq_if (by decide)]
    split_ifs with hs
    · rw [mem_singleton]
      exact hd n
    · rw [mem_append,not_or,mem_singleton]
      exact ⟨ih _ (by omega),hd _⟩

theorem not_mem_renderGroups (segments : List ℕ) : '.' ∉ IpAddr.renderGroups segments := by
  unfold IpAddr.renderGroups
  rw [mem_intercalate (by decide)]
  rintro ⟨pc,hp,hd⟩
  obtain ⟨n,_,rfl⟩ := mem_map.mp hp
  exact not_mem_toDigits n hd

theorem not_mem_print_ipv6 (sgs : Fin 8 → Fin 65536) : '.' ∉ (ipv6 sgs).print := by
  have hg := not_mem_renderGroups
  simp only [print,printGroups]
  split_ifs
  all_goals simp [hg]

/-- An IPv6 host has no dot in its text and counts as a private name. -/
theorem privateName_ipv6 (sgs : Fin 8 → Fin 65536) :
    privateName (toAsciiLowercase (ipv6 sgs).print) = true := by
  have hd := mt (mem_toAsciiLowercase (by decide)).mp (not_mem_print_ipv6 sgs)
  simp [privateName,hd]

theorem privateIp_ipv4 (a b c d : UInt8) : privateIp (toAsciiLowercase (ipv4 a b c d).print) =
      (IpAddr.isPrivate (.v4 (octets a b c d)) || IpAddr.isLoopback (.v4 (octets a b c d)) ||
        IpAddr.isLinkLocal (.v4 (octets a b c d))) := by
  have hp : IpAddr.parse (IpAddr.renderOctets (octets a b c d)) = some (.v4 (octets a b c d)) :=
    IpAddr.parse_renderOctets a.toNat_lt b.toNat_lt c.toNat_lt d.toNat_lt
  rw [print,toAsciiLowercase_renderOctets,privateIp,hp]

/-- A host that passes the check is local just if it is one of the two kinds overlooked. -/
theorem isLocal_eq_isOverlooked {hst : Host} (hn : privateName (toAsciiLowercase hst.print) = false)
    (hip : privateIp (toAsciiLowercase hst.print) = false) :
    hst.isLocal = hst.isOverlooked := by
  cases hst with
  | domain n =>
    simp only [isLocal,isOverlooked,withoutDot]
    split_ifs with hd
    · simp [hd]
    · have hl : isLocalName (toAsciiLowercase n) = false := by
        rw [privateName,Bool.or_eq_false_iff] at hn
        exact hn.1
      simp [hd,hl]
  | ipv4 a b c d =>
    rw [privateIp_ipv4] at hip
    simp only [isLocal,isOverlooked,hip,Bool.false_or]
  | ipv6 sgs =>
    rw [privateName_ipv6] at hn
    cases hn

end Host

/-- What is assumed of the URL library: a URL's host text is the printed host, and query
pairs leave the host alone. -/
structure HostReading (crate : HttpCrate) where
  host : crate.Url → Option Host
  hostStr_eq : ∀ url, crate.hostStr url = (host url).map Host.print
  host_query : ∀ url name value, host (crate.query url name value) = host url

section
variable {crate : HttpCrate} (reading : HostReading crate)

def Local (url : crate.Url) : Prop := ∃ host, reading.host url = some host ∧ host.isLocal

def Overlooked (url : crate.Url) : Prop := ∃ host, reading.host url = some host ∧ host.isOverlooked

variable {reading} {url : crate.Url}

theorem local_iff_of_accepted (ha : Accepted crate url) :
    Local reading url ↔ Overlooked reading url := by
  obtain ⟨v,hok⟩ := ha
  obtain ⟨_,_,t,ht,hn,hip⟩ := checkedHttpsUrl_eq_ok hok
  have hr := reading.hostStr_eq url
  rw [ht] at hr
  obtain ⟨hst,hh,rfl⟩ := Option.map_eq_some_iff.mp hr.symm
  simp only [Local,Overlooked,hh,Option.some.injEq,exists_eq_left',
    Host.isLocal_eq_isOverlooked hn hip]

end

/-- Whatever the reference and whatever the servers answer, a requested URL has a local host
just if the host is a local name with its trailing dot or the unspecified IPv4 address. None
is requested if no URL that the reference spells, and none that an answer leads to, has such
a host. -/
theorem resolve_reaches_local (crate : RegistryCrate) (reading : HostReading crate.toHttpCrate)
    (cache : BlobCache) (limits : FeatureSourceLimits)
    (resolveLocal : Text → Except FeatureSourceError (Text × Text)) (reference : FeatureReference)
    (outside : Outside (@Answer crate.toHttpCrate)) :
    let h := (talk outside (resolve crate cache limits resolveLocal reference) []).2
    (∀ e ∈ h, Local reading e.1.url ↔ Overlooked reading e.1.url) ∧
      ((∀ url, Spelled crate reference url → ¬ Overlooked reading url) →
        (∀ e ∈ h, ∀ resp, e.2 = some resp → ∀ url,
          Redirects crate e.1.url resp url ∨ Challenges crate resp url → ¬ Overlooked reading url) →
        ∀ e ∈ h, ¬ Local reading e.1.url) := by
  intro h
  have hs := reading.host_query
  constructor
  · have hr : Abides (Leads fun url => Local reading url ↔ Overlooked reading url)
        (Asks fun url => Local reading url ↔ Overlooked reading url) (fun _ => True)
        (resolve crate cache limits resolveLocal reference) := by
      apply abides_resolve
      · intro url n v hu
        simpa only [Local,Overlooked,hs] using hu
      · exact fun url ha _ => local_iff_of_accepted ha
    exact hr.asks (by simp) fun e _ resp _ url ha _ => local_iff_of_accepted ha
  · intro hsp han
    have hr : Abides (Leads fun url => ¬ Local reading url)
        (Asks fun url => ¬ Local reading url) (fun _ => True)
        (resolve crate cache limits resolveLocal reference) := by
      apply abides_resolve
      · intro url n v hu
        simpa only [Local,hs] using hu
      · intro url ha hu
        rw [local_iff_of_accepted ha]
        exact hsp url hu
    apply hr.asks (by simp)
    intro e he resp hre url ha hl
    rw [local_iff_of_accepted ha]
    exact han e he resp hre url hl

def sampleRegistry : RegistryCrate where
  toHttpCrate := sampleUrls
  digestBytes _ := "sha256:"
  indexDocument _ := .error []
  manifestDocument _ := .error []
  tokenDocument _ := .ok ⟨some "anonymous",none⟩

def sampleReading : HostReading sampleUrls where
  host
    | .plain | .manifest => some (.domain "registry.example")
    | .tokens => some (.domain "auth.example")
    | .mirror => some (.domain "cdn.example")
    | .dotted => some (.domain "localhost.")
    | .unspecified => some (.ipv4 0 0 0 0)
  hostStr_eq := by
    intro url
    cases url <;> rfl
  host_query := fun _ _ _ => rfl

def emptyCache : BlobCache where
  verifyCached _ _ := .ok false
  store _ _ := .ok ()

def sampleRequests (reference : FeatureReference)
    (outside : Outside (@Answer sampleUrls)) : List SampleUrl :=
  (talk outside (resolve sampleRegistry emptyCache ⟨5,1048576,67108864⟩ (fun _ => .error .cache)
    reference) []).2.map fun e => e.1.url

def plainAnswer : Response := ⟨200,none,none,none,none,[some [1,2,3]]⟩

/-- The registry asks for a token and then redirects. -/
def sampleAnswer (request : Request sampleUrls) : Response :=
  match request.url, request.authorization with
  | SampleUrl.manifest, none =>
    ⟨401,none,some "Bearer realm=\"https://auth.example/feature.tgz\"",none,none,[]⟩
  | SampleUrl.manifest, some _ => ⟨307,some "https://cdn.example/feature.tgz",none,none,none,[]⟩
  | _, _ => plainAnswer

theorem toText_of_parse {value : Text} {url : sampleRegistry.Url}
    (h : sampleRegistry.parse value = .ok url) : SampleUrl.toText url = value := by
  change SampleUrl.parse value = .ok url at h
  unfold SampleUrl.parse at h
  split at h
  · next hf =>
    cases h
    simpa using List.find?_some hf
  · cases h

theorem not_overlooked {url : SampleUrl} (h : url = .manifest ∨ url = .tokens ∨ url = .mirror) :
    ¬ Overlooked sampleReading url := by
  rintro ⟨_,hh,ho⟩
  rcases h with rfl | rfl | rfl <;> cases hh <;> exact absurd ho (by decide)

theorem resolve_registry_public :
    sampleRequests (.oci "registry.example/a:1") (fun _ request => some (sampleAnswer request)) =
        [.manifest,.tokens,.manifest,.mirror] ∧
      ∀ e ∈ (talk (fun _ request => some (sampleAnswer request)) (resolve sampleRegistry emptyCache
        ⟨5,1048576,67108864⟩ (fun _ => .error .cache) (.oci "registry.example/a:1")) []).2,
        ¬ Local sampleReading e.1.url := by
  refine ⟨rfl,(resolve_reaches_local sampleRegistry sampleReading emptyCache
    ⟨5,1048576,67108864⟩ (fun _ => .error .cache) _ _).2 ?_ ?_⟩
  · rintro url ⟨parsed,selector,hp,hs⟩
    obtain rfl : ⟨"registry.example","a","1",none⟩ = parsed := Except.ok.inj hp
    have ht : (SampleUrl.toText url).take 9 = "https://r".toList := by
      rcases hs with hs | hs
      · exact congrArg (take 9) (toText_of_parse hs)
      · exact congrArg (take 9) (toText_of_parse hs)
    refine not_overlooked (.inl ?_)
    revert ht
    cases url <;> decide
  · intro e he resp hr url hl
    have ha : e.2 = some (sampleAnswer e.1) := by
      obtain ⟨bef,aft,hsp⟩ := append_of_mem he
      exact (answers_talk throughout_nil bef e aft hsp).symm
    rw [ha] at hr
    cases hr
    refine not_overlooked (.inr ?_)
    unfold sampleAnswer at hl
    split at hl
    · rcases hl with ⟨_,_,⟨⟩,_⟩ | ⟨_,_,⟨⟩,⟨⟩,hp⟩
      exact .inl (Except.ok.inj hp).symm
    · rcases hl with ⟨_,_,⟨⟩,⟨⟩,hp⟩ | ⟨_,_,⟨⟩,_⟩
      exact .inr (Except.ok.inj hp).symm
    · rcases hl with ⟨_,_,⟨⟩,_⟩ | ⟨_,_,⟨⟩,_⟩

/-- Both texts are accepted as references, and both requests are sent: to this machine by its
name with a trailing dot, and to the unspecified address. -/
theorem resolve_requests_local :
    FeatureReference.parse sampleUrls.toUrlCrate "https://localhost./feature.tgz" =
        .ok (.https "https://localhost./feature.tgz") ∧
      sampleRequests (.https "https://localhost./feature.tgz")
        (fun _ _ => some plainAnswer) = [.dotted] ∧
      Local sampleReading SampleUrl.dotted ∧
      FeatureReference.parse sampleUrls.toUrlCrate "https://0.0.0.0/feature.tgz" =
        .ok (.https "https://0.0.0.0/feature.tgz") ∧
      sampleRequests (.https "https://0.0.0.0/feature.tgz")
        (fun _ _ => some plainAnswer) = [.unspecified] ∧
      Local sampleReading SampleUrl.unspecified := by
  refine ⟨?_,?_,⟨_,rfl,?_⟩,?_,?_,⟨_,rfl,?_⟩⟩
  · rfl
  · rfl
  · decide
  · rfl
  · rfl
  · decide

end Cdenv.FeatureHosts
