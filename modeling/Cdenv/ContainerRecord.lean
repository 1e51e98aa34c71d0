import Cdenv.DockerCommand
import Cdenv.Inspection
import Cdenv.OptionGrammar

/-!
# What Docker records of a create command

Docker's side of a created container, as far as an inspection shows it. The vector is
read with Docker's option table. The last user and the last working directory hold; every
`--mount` and `--volume` makes one mount point; every published port makes one port
binding, with the host address and the host port as they were requested, and an empty host
port where none was. An unnamed volume gets a generated name.

Because the tool appends its own options behind complete run arguments, the settings of a
create vector are those of the run arguments followed by the tool's own.
-/
namespace Cdenv.ContainerRecord
open TextScan Fallible RuntimePlanning DockerCommand PortPlanning MountArguments OptionGrammar List
open Inspection

/-- One option and what it is set to, once for each item. A switch is set to nothing. -/
abbrev OptionGroup := Text × List (Option Text)

def OptionGroup.settings (g : OptionGroup) : List Setting :=
  g.2.map fun value => ⟨g.1,value,false⟩

/-- What the tool sets in a create command, in the order of `ownedCreateArguments`. -/
def ownedGroups (request : DockerCreateRequest) : List OptionGroup :=
  [("name", [some request.name]),
    ("label", request.identity.labels.map some),
    ("publish", request.ports.publications.map fun publication => some publication.argument),
    ("gpus",
      match request.gpuAccess with
      | .requested => [some "all"]
      | .none => []),
    ("mount", (request.runtime.workspace.mount::request.runtime.mounts).map fun mount =>
      some (mountArgument mount)),
    ("env", request.runtime.environment.container.entries.map fun entry =>
      some (assignment entry)),
    ("user", [some request.runtime.containerUser.value]),
    ("workdir", [some request.runtime.workspace.folder.value]),
    ("init", if request.runtime.init then [none] else []),
    ("privileged", if request.runtime.privileged then [none] else []),
    ("cap-add", request.runtime.capAdd.map some),
    ("security-opt", request.runtime.securityOpt.map some)]

def ownedSettings (request : DockerCreateRequest) : List Setting :=
  (ownedGroups request).flatMap OptionGroup.settings

/-- The options that the tool writes with a value, and those it writes without. -/
def valuedOptions : List Text :=
  ["name","label","publish","gpus","mount","env","user","workdir","cap-add","security-opt"]

def switchOptions : List Text := ["init","privileged"]

structure KnowsCreateOptions (table : OptionTable) : Prop where
  valued : ∀ option ∈ valuedOptions, table.long option = some .valued
  switch : ∀ option ∈ switchOptions, table.long option = some .switch

def createSettings (table : OptionTable) (argv : List Text) : List Setting :=
  (parse table 0 argv.tail).occurrences.flatMap (·.settings)

def valuesOf (option : String) (settings : List Setting) : List Text :=
  (settings.filter fun s => s.option == option.toList).filterMap (·.value)

def isMountOption (option : Text) : Bool :=
  option == "mount" || option == "volume"

def mountPoint (generated : Text) (mount : DockerMount) : MountPoint :=
  let kind := mount.kind.getD "volume"
  if kind = "volume" then
    ⟨some kind,some (mount.source.getD generated),none,mount.target,some []⟩
  else ⟨some kind,none,mount.source,mount.target,some []⟩

/-- The mount point of `[source:]target[:mode]`. -/
def volumePoint (generated spec : Text) : MountPoint :=
  match spec.splitOn ':' with
  | source::target::mode =>
    if source.head? = some '/' then
      ⟨some "bind",none,some source,some target,some (mode.headD [])⟩
    else ⟨some "volume",some source,none,some target,some (mode.headD [])⟩
  | _ => ⟨some "volume",some generated,none,some spec,some []⟩

def settingPoint (generated : Text) (s : Setting) : MountPoint :=
  if s.option = "mount" then
    mountPoint generated (readMountArgument (s.value.getD []))
  else volumePoint generated (s.value.getD [])

/-- `generated` names the unnamed volumes by position. -/
def mountPoints (generated : ℕ → Text) (settings : List Setting) : List MountPoint :=
  (settings.filter fun s => isMountOption s.option).zipIdx.map fun p => settingPoint (generated p.2) p.1

/-- The texts of host address, host port and container port. Brackets are not recorded. -/
def splitAddress (value : Text) : Option (Text × Text × Text) :=
  match stripPrefix ['['] value with
  | some rest => (splitBracket rest).map fun p => (p.1, (splitOnce ':' p.2).getD ([], p.2))
  | none =>
    match value.splitOn ':' with
    | [container] => some ([], [], container)
    | [addressOrHost,container] =>
      if (IpAddr.parse addressOrHost).isSome then some (addressOrHost, [], container)
      else some ([], addressOrHost, container)
    | [address,host,container] => some (address, host, container)
    | _ => none

def portEntry (protocol : PublicationProtocol) (address : Text) (host : Option ℕ) (port : ℕ) :
    InspectedPortBinding :=
  ⟨decimal port++ '/'::protocolText protocol,some address,some ((host.map decimal).getD [])⟩

/-- The host port that belongs to one container port, if a range of them is requested. -/
def hostPortOf (hostPorts : Option PortRange) (containerPorts : PortRange) (port : ℕ) : Option ℕ :=
  hostPorts.map fun range => range.first.value+(port - containerPorts.first.value)

def requestedRange (host : Text) : Option (Option PortRange) :=
  if host.isEmpty then some none else (parseRange host).map some

def publishedPorts (argument : Text) : Option (List InspectedPortBinding) := do
  let (value, protocol) ← splitProtocol argument
  let (address, host, container) ← splitAddress value
  let containerPorts ← parseRange container
  let hostPorts ← requestedRange host
  return (rangePorts containerPorts).map fun port =>
    portEntry protocol address (hostPortOf hostPorts containerPorts port) port

/-- The inspected container is the one that the vector describes. Docker lists mount points
and bindings in no particular order. -/
structure Records (table : OptionTable) (generated : ℕ → Text) (argv : List Text)
    (running : Bool) (response : ContainerInspectResponse) : Prop where
  /-- Docker could read the vector and found an image in it. -/
  accepted : (parse table 0 argv.tail).positional.isSome = true
  config : ∃ labels, response.config = some
    ⟨labels,(valuesOf "user" (createSettings table argv)).getLast?,
      (valuesOf "workdir" (createSettings table argv)).getLast?⟩
  state : response.state = some ⟨some running⟩
  mounts : ∃ mounts, response.mounts = some mounts ∧
    mounts.Perm (mountPoints generated (createSettings table argv))
  ports : ∃ bindings entries, response.portBindings = some bindings ∧
    (valuesOf "publish" (createSettings table argv)).mapM publishedPorts = some entries ∧
    (inspectedPorts bindings).Perm entries.flatten

/-- One response that records a vector: each entry under a key of its own, in reading order. -/
def recorded (table : OptionTable) (generated : ℕ → Text) (argv : List Text) (running : Bool)
    (id name image : Text) (entries : List (List InspectedPortBinding)) :
    ContainerInspectResponse where
  id := some id
  name := some name
  image := some image
  config := some ⟨none,(valuesOf "user" (createSettings table argv)).getLast?,
    (valuesOf "workdir" (createSettings table argv)).getLast?⟩
  state := some ⟨some running⟩
  mounts := some (mountPoints generated (createSettings table argv))
  portBindings := some (entries.flatten.map fun entry =>
    (entry.container, some [⟨entry.hostIp,entry.hostPort⟩]))

variable {table : OptionTable} {arg prop : Text} {publication : PublicationRequest}

theorem records_recorded {argv : List Text} {es : List (List InspectedPortBinding)}
    (ha : (parse table 0 argv.tail).positional.isSome = true)
    (h : (valuesOf "publish" (createSettings table argv)).mapM publishedPorts = some es)
    (gen : ℕ → Text) (run : Bool) (id n img : Text) :
    Records table gen argv run (recorded table gen argv run id n img es) := by
  refine ⟨ha,⟨none,rfl⟩,rfl,⟨_,rfl,.refl _⟩,⟨_,es,rfl,h,?_⟩⟩
  have he : inspectedPorts (es.flatten.map fun e =>
      (e.container, some [⟨e.hostIp,e.hostPort⟩])) = es.flatten := by
    generalize es.flatten = flat
    rw [inspectedPorts,flatMap_map]
    exact flatMap_singleton' flat
  rw [he]

theorem eachOption_map {A : Type} {wr : String} {opt : Text}
    (h : wr.toList = dashes opt) (l : List A) (f : A → Text) :
    eachOption wr (l.map f) =
      (OptionGroup.settings (opt, l.map fun a => some (f a))).flatMap write := by
  rw [eachOption,h,OptionGroup.settings,map_map,flatMap_map,flatMap_map]
  rfl

theorem eachOption_eq {wr : String} {opt : Text} (h : wr.toList = dashes opt) (vs : List Text) :
    eachOption wr vs = (OptionGroup.settings (opt, vs.map some)).flatMap write := by
  have hid := eachOption_map h vs id
  rwa [map_id] at hid

theorem ownedCreateArguments_eq (rq : DockerCreateRequest) : ownedCreateArguments rq =
      (ownedSettings rq).flatMap write++rq.image::rq.command := by
  have hm : (OptionGroup.settings ("mount",
      (rq.runtime.workspace.mount::rq.runtime.mounts).map fun m =>
        some (mountArgument m))).flatMap write =
      ["--mount".toList,mountArgument rq.runtime.workspace.mount] ++
        eachOption "--mount" (rq.runtime.mounts.map mountArgument) :=
    (eachOption_map rfl (rq.runtime.workspace.mount::_) mountArgument).symm
  simp only [ownedCreateArguments,ownedSettings,ownedGroups,flatMap_append,
    flatMap_cons,flatMap_nil,append_nil,hm,append_assoc]
  -- Both sides are now the same sequence of parts, one for each option.
  repeat' apply congrArg₂ HAppend.hAppend
  any_goals exact eachOption_eq rfl _
  any_goals exact eachOption_map rfl _ _
  · rfl
  · cases rq.gpuAccess <;> rfl
  · rfl
  · rfl
  · rfl
  · rfl
  · cases rq.runtime.init <;> rfl
  · cases rq.runtime.privileged <;> rfl
  · rfl

theorem ownedGroups_arity (rq : DockerCreateRequest) : ∀ g ∈ ownedGroups rq,
      g.1 ∈ valuedOptions ∧ (∀ v ∈ g.2, v.isSome = true) ∨
        g.1 ∈ switchOptions ∧ ∀ v ∈ g.2, v = none := by
  have hg : ∀ v ∈ (match rq.gpuAccess with
      | .requested => [some "all".toList]
      | .none => []), v.isSome = true := by
    cases rq.gpuAccess <;> simp
  have hsw : ∀ b : Bool, ∀ v ∈ (if b then [none] else [] : List (Option Text)), v = none := by
    simp
  have hs : ∀ {A : Type} (l : List A) (f : A → Text),
      ∀ v ∈ l.map fun a => some (f a), v.isSome = true := by
    simp
  simp only [ownedGroups,forall_mem_cons,not_mem_nil,false_implies,implies_true,and_true]
  exact ⟨.inl ⟨by decide,rfl⟩,.inl ⟨by decide,hs _ id⟩,.inl ⟨by decide,hs _ _⟩,
    .inl ⟨by decide,hg⟩,.inl ⟨by decide,hs _ _⟩,.inl ⟨by decide,hs _ _⟩,
    .inl ⟨by decide,rfl⟩,.inl ⟨by decide,rfl⟩,.inr ⟨by decide,hsw _⟩,
    .inr ⟨by decide,hsw _⟩,.inl ⟨by decide,hs _ id⟩,.inl ⟨by decide,hs _ id⟩⟩

theorem fits_ownedSettings (h : KnowsCreateOptions table) (rq : DockerCreateRequest)
    : ∀ s ∈ ownedSettings rq, Fits table s := by
  have hw : ∀ g ∈ ownedGroups rq, g.1 ≠ [] ∧ '=' ∉ g.1 := by
    simp [ownedGroups]
  intro s hs
  obtain ⟨g,hg,hs⟩ := mem_flatMap.mp hs
  obtain ⟨v,hv,rfl⟩ := mem_map.mp hs
  refine ⟨rfl,(hw g hg).1,(hw g hg).2,?_⟩
  rcases ownedGroups_arity rq g hg with ⟨hn,ha⟩ | ⟨hn,ha⟩
  · rw [if_pos (ha v hv)]
    exact h.valued g.1 hn
  · rw [ha v hv]
    exact h.switch g.1 hn

variable {v : Text} {bd : PublicationBinding} {pl p' : PortPlan}
variable {jsonString : Text → Text} {eff : EffectiveMetadata}

theorem read_dockerValue (table : OptionTable) (h : isDockerValue v = true) :
    OptionGrammar.read table v = .positional := by
  cases v with
  | nil => simp [isDockerValue] at h
  | cons c v =>
    have hc : c ≠ '-' := by
      rintro rfl
      simp [isDockerValue] at h
    simp [OptionGrammar.read,hc]

theorem createSettings_eq {request : DockerCreateRequest} {argv : List Text} {extra : List Setting}
    (hk : KnowsCreateOptions table) (he : readAll table request.runArguments = some extra)
    (h : createArguments request = .ok argv) :
    createSettings table argv = extra++ownedSettings request := by
  obtain ⟨-,-,hi,rfl⟩ := createArguments_eq_ok h
  have ho := readAll_write (fits_ownedSettings hk request)
  have ha : readAll table (request.runArguments++(ownedSettings request).flatMap write) =
      some (extra++ownedSettings request) := by
    rw [readAll_append he,ho]
    rfl
  rw [createSettings,tail_cons,ownedCreateArguments_eq,← append_assoc]
  exact parse_readAll ha (read_dockerValue table hi) 0

theorem valuesOf_append (opt : String) (l m : List Setting) :
    valuesOf opt (l++m) = valuesOf opt l++valuesOf opt m := by
  simp [valuesOf]

theorem filter_groups (p : Text → Bool) (gs : List OptionGroup) :
    (gs.flatMap OptionGroup.settings).filter (fun s => p s.option) =
      (gs.filter fun g => p g.1).flatMap OptionGroup.settings := by
  induction gs with
  | nil => rfl
  | cons g gs ih =>
    rw [flatMap_cons,filter_append,ih,filter_cons]
    cases hp : p g.1 <;> simp [OptionGroup.settings,filter_map,Function.comp_def,hp]

section
variable (req : DockerCreateRequest)

theorem owned_user : valuesOf "user" (ownedSettings req) = [req.runtime.containerUser.value] := by
  rw [valuesOf,ownedSettings,filter_groups fun opt => opt == "user"]
  rfl

theorem owned_workdir :
    valuesOf "workdir" (ownedSettings req) = [req.runtime.workspace.folder.value] := by
  rw [valuesOf,ownedSettings,filter_groups fun opt => opt == "workdir"]
  rfl

theorem owned_publish :
    valuesOf "publish" (ownedSettings req) = req.ports.publications.map (·.argument) := by
  have hg : (ownedGroups req).filter (fun g => g.1 == "publish".toList) =
      [("publish".toList, req.ports.publications.map fun publication => some publication.argument)] :=
    rfl
  rw [valuesOf,ownedSettings,filter_groups fun opt => opt == "publish",hg]
  simp [OptionGroup.settings]

theorem owned_mounts : (ownedSettings req).filter (fun s => isMountOption s.option) =
      (req.runtime.workspace.mount::req.runtime.mounts).map fun m =>
        ⟨"mount",some (mountArgument m),false⟩ := by
  rw [ownedSettings,filter_groups]
  exact (append_nil _).trans map_map

end

/-- The address that a publication asks for, as it was written. -/
def requestedAddress (publication : PublicationRequest) : Text :=
  ((splitProtocol publication.argument).bind fun p => splitAddress p.1).elim [] (·.1)

def publicationEntries (publication : PublicationRequest) : List InspectedPortBinding :=
  (rangePorts publication.containerPorts).map fun port =>
    portEntry publication.protocol (requestedAddress publication)
      (hostPortOf publication.hostPorts publication.containerPorts port) port

/-- What the planner guarantees of a publication: Docker reads its argument as planned, and
as many host ports are requested as there are container ports, if any. -/
structure PlannedPublication (publication : PublicationRequest) : Prop where
  published : publishedPorts publication.argument = some (publicationEntries publication)
  ordered : publication.containerPorts.first.value ≤ publication.containerPorts.last.value
  hostPorts : ∀ range, publication.hostPorts = some range →
    range.first.value ≤ range.last.value ∧ range.width = publication.containerPorts.width

theorem parseRange_ordered {t : Text} {rg : PortRange} (h : parseRange t = some rg) :
    rg.first.value ≤ rg.last.value := by
  simp only [parseRange] at h
  split at h
  · split_ifs at h with hle
    cases h
    exact hle
  · cases h

/-- The planner and Docker cut an endpoint at the same places. -/
theorem splitAddress_of_splitEndpoint {hst ctr : Text} (h : splitEndpoint v = some (bd, hst, ctr)) :
    ∃ addr, splitAddress v = some (addr, hst, ctr) := by
  unfold splitEndpoint at h
  split at h
  · next xs hr =>
    simp only [Option.bind_eq_bind,Option.bind_eq_some_iff] at h
    obtain ⟨⟨addr,ps⟩,hb,pd,hpa,h⟩ := h
    split_ifs at h
    cases h
    exact ⟨addr,by simp [splitAddress,hr,hb]⟩
  · next hr =>
    split at h
    · next ctr hs =>
      cases h
      exact ⟨[],by simp [splitAddress,hr,hs]⟩
    · next addressOrHost ctr hs =>
      split at h
      · next addr hp =>
        cases h
        exact ⟨addressOrHost,by simp [splitAddress,hr,hs,hp]⟩
      · next hp =>
        cases h
        exact ⟨[],by simp [splitAddress,hr,hs,hp]⟩
    · next addr hst ctr hs =>
      refine ⟨addr,?_⟩
      split_ifs at h with hem
      · cases h
        simp [splitAddress,hr,hs]
      · obtain ⟨pd,-,he⟩ := Option.map_eq_some_iff.mp h
        cases he
        simp [splitAddress,hr,hs]
    · cases h

/-- A publication is planned as its argument is cut. -/
theorem planned_of_parts {addr hst ctr : Text} {pr : PublicationProtocol}
    {hps : Option PortRange} {cps : PortRange}
    (hp : splitProtocol arg = some (v, pr))
    (ha : splitAddress v = some (addr, hst, ctr))
    (hc : parseRange ctr = some cps)
    (hh : requestedRange hst = some hps)
    (ho : ∀ rg, hps = some rg → rg.first.value ≤ rg.last.value)
    (hw : hps.all (fun ps => ps.width == cps.width) = true) :
    PlannedPublication ⟨arg,bd,hps,cps,pr⟩ := by
  refine ⟨?_,parseRange_ordered hc,?_⟩
  · simp [publishedPorts,publicationEntries,requestedAddress,hp,ha,hc, hh]
  · intro rg hr
    exact ⟨ho rg hr,by simpa [show hps = some rg from hr] using hw⟩

theorem parsePublication_planned (h : parsePublication arg prop = .ok publication)
    : PlannedPublication publication := by
  simp only [parsePublication,bind_eq_ok,require_eq_ok,orFail_eq_ok] at h
  obtain ⟨-,-,⟨v,pr⟩,hp,⟨bd,hst,ctr⟩,hen,cps,hc,h⟩ := h
  obtain ⟨addr,ha⟩ := splitAddress_of_splitEndpoint hen
  split_ifs at h with he
  · simp only [bind_eq_ok,require_eq_ok,pure_eq_ok] at h
    obtain ⟨hps,⟨⟩,-,hw,rfl⟩ := h
    exact planned_of_parts hp ha hc (if_pos he) (by simp) hw
  · simp only [bind_eq_ok,require_eq_ok,pure_eq_ok] at h
    obtain ⟨hps,hh,-,hw,rfl⟩ := h
    obtain ⟨rg,hr,rfl⟩ := map_eq_ok.mp hh
    rw [orFail_eq_ok] at hr
    have hre : requestedRange hst = some (some rg) := by
      rw [requestedRange,if_neg he,hr]
      rfl
    refine planned_of_parts hp ha hc hre ?_ hw
    rintro _ ⟨⟩
    exact parseRange_ordered hr

theorem parseU16_decimal {n : ℕ} (h : n < 65536) : parseU16 (decimal n) = some n := by
  have hp : stripPrefix ['+'] (decimal n) = none := by
    have hh : '+' ∉ decimal n := not_mem_decimal rfl n
    cases hd : decimal n with
    | nil => rfl
    | cons c xs =>
      have hc : '+' ≠ c := fun hc => hh (hd ▸ hc ▸ mem_cons_self)
      simp [stripPrefix,hc]
  have he : (decimal n).isEmpty = false := by
    simp [decimal,Nat.toDigits_ne_nil]
  have hdg : (decimal n).all Char.isDigit = true :=
    all_eq_true.mpr fun c hc => Nat.isDigit_of_mem_toDigits (by decide) (by decide) hc
  have hv : (decimal n).foldl (fun n c => n*10+(c.toNat - 48)) 0 = n := by
    have hdi := Nat.ofDigitChars_toDigits (b := 10) (n := n) (by decide) (by decide)
    simpa [decimal,Nat.ofDigitChars,Nat.mul_comm] using hdi
  simp only [parseU16,hp,Option.getD_none,he,hdg,hv,Bool.not_true,Bool.or_self,
    Bool.false_eq_true,if_false,if_pos h]

theorem parseRange_decimal (port : PortNumber) :
    parseRange (decimal port.value) = some ⟨port,port⟩ := by
  have hp : parsePort (decimal port.value) = some port := by
    rw [parsePort,parseU16_decimal port.bounded]
    exact dif_pos ⟨port.positive,port.bounded⟩
  have hd : splitOnce '-' (decimal port.value) = none :=
    splitOnce_eq_none.mpr (not_mem_decimal rfl _)
  simp [parseRange,hd,hp]

theorem splitAddress_intercalate {addr ho ctr : Text} (hb : '[' ∉ addr)
    (ha : ':' ∉ addr) (hh : ':' ∉ ho) (hco : ':' ∉ ctr) :
    splitAddress ([':'].intercalate [addr,ho,ctr]) = some (addr, ho, ctr) := by
  have hs : ([':'].intercalate [addr,ho,ctr]).splitOn ':' = [addr,ho,ctr] :=
    List.splitOn_intercalate ':' (by simp [ha,hh,hco]) (by simp)
  have hst : stripPrefix ['['] ([':'].intercalate [addr,ho,ctr]) = none := by
    cases addr with
    | nil => rfl
    | cons c addr =>
      have hc : '[' ≠ c := fun hc => hb (hc ▸ List.mem_cons_self)
      simp [stripPrefix,hc]
  simp only [splitAddress,hst,hs]

theorem splitProtocol_of_not_mem (h : '/' ∉ arg) : splitProtocol arg = some (arg, .tcp) := by
  have hn : rsplitOnce '/' arg = none := by
    simp [rsplitOnce,splitOnce_eq_none,h]
  simp only [splitProtocol,hn]

theorem numericPublication_planned {p : ℕ}
    (h : numericPublication p prop = .ok publication) : PlannedPublication publication := by
  simp only [numericPublication,bind_eq_ok,orFail_eq_ok,pure_eq_ok] at h
  obtain ⟨n,-,rfl⟩ := h
  have ha : "127.0.0.1:"++decimal n.value++ ':'::decimal n.value =
      [':'].intercalate ["127.0.0.1",decimal n.value,decimal n.value] := by
    simp
  have hc : ':' ∉ decimal n.value := not_mem_decimal rfl _
  have hs : '/' ∉ decimal n.value := not_mem_decimal rfl _
  have hr : requestedRange (decimal n.value) = some (some ⟨n,n⟩) := by
    rw [requestedRange,parseRange_decimal,if_neg (by simp [decimal,Nat.toDigits_ne_nil])]
    rfl
  rw [ha]
  refine planned_of_parts (splitProtocol_of_not_mem ?_)
    (splitAddress_intercalate (by decide) (by decide) hc hc) (parseRange_decimal n)
    hr ?_ (by simp)
  · simp [hs]
  · rintro _ ⟨⟩
    exact le_rfl

theorem planPublication_planned {p : AppPort} (h : planPublication p prop = .ok publication) :
    PlannedPublication publication := by
  cases p with
  | number p => exact numericPublication_planned h
  | dockerArgument arg => exact parsePublication_planned h

theorem planAppPort_publications {n : ℕ} {e : AppPort × ℕ} (h : planAppPort n pl e = .ok p') :
    ∃ publication, PlannedPublication publication ∧
      p'.publications = pl.publications++[publication] := by
  simp only [planAppPort,bind_eq_ok,require_eq_ok,pure_eq_ok] at h
  obtain ⟨publication,hp,-,-,rfl⟩ := h
  exact ⟨publication,planPublication_planned hp,rfl⟩

theorem planAttributeKey_publications {key : Text}
    (h : planAttributeKey jsonString pl key = .ok p') :
    p'.publications = pl.publications := by
  unfold planAttributeKey at h
  split at h <;> cases h <;> rfl

theorem planForward_publications {compose : Bool} {e : ForwardPort × ℕ}
    (h : planForward eff compose pl e = .ok p') :
    p'.publications = pl.publications := by
  simp only [planForward,bind_eq_ok,require_eq_ok,pure_eq_ok] at h
  obtain ⟨t,-,p,-,-,-,rfl⟩ := h
  rfl

theorem planPorts_planned {prof : RawProfile} {ps : PortPlan}
    (h : planPorts jsonString prof eff = .ok ps) :
    ∀ publication ∈ ps.publications, PlannedPublication publication := by
  simp only [planPorts,bind_eq_ok] at h
  obtain ⟨p₁,hap,p₂,har,hf⟩ := h
  have hp₁ : ∀ publication ∈ p₁.publications, PlannedPublication publication := by
    refine foldlM_invariant (I := fun pl : PortPlan =>
      ∀ publication ∈ pl.publications, PlannedPublication publication) ?_ (by simp) hap
    intro e _ pl p' hp hs publication hm
    obtain ⟨added,ha,he⟩ := planAppPort_publications hs
    rw [he,mem_append,mem_singleton] at hm
    rcases hm with hm | rfl
    · exact hp publication hm
    · exact ha
  have hat : p₂.publications = p₁.publications := by
    refine foldlM_invariant (I := fun pl : PortPlan => pl.publications = p₁.publications) ?_ rfl har
    intro key _ pl p' hp hs
    exact (planAttributeKey_publications hs).trans hp
  have hpo : ps.publications = p₂.publications := by
    refine foldlM_invariant (I := fun pl : PortPlan =>
      pl.publications = p₂.publications) ?_ (by split_ifs <;> rfl) hf
    intro e _ pl p' hp hs
    exact (planForward_publications hs).trans hp
  rw [hpo,hat]
  exact hp₁

end Cdenv.ContainerRecord
