import Cdenv.ContainerRecord
import Cdenv.CreateArguments
import Mathlib.Data.List.Perm.Basic

/-!
# Verifying a created container against its plan

Before and after a container is started, its inspection is compared with the runtime plan
and the port plan. The comparison is put beside what Docker records of the very vector that
the plans were rendered to. It accepts the record exactly when nothing was passed through
that mounts or publishes, when every mount is named, without options and without commas,
and when every published port shows the address and a host port that was asked for.
-/
namespace Cdenv.RuntimeVerification
open TextScan Fallible FieldList RuntimePlanning DockerCommand PortPlanning MountArguments List
open OptionGrammar Inspection ContainerRecord

inductive ImageContainerError where
  | runtimeMismatch (field : Text)
deriving DecidableEq

def mountMatches (actual : InspectedMount) (expected : PlannedMount) : Bool :=
  actual.kind == kindText expected.kind && actual.source == expected.source &&
    actual.target == expected.target.value &&
    expected.options.all fun option =>
      ((actual.mode.getD []).splitOn ',').any fun value => value == renderField (optionField option)

def portsMatch (actual : List InspectedPortBinding) (expected : PortPlan) : Bool :=
  actual.length == (expected.publications.map fun publication =>
      publication.containerPorts.width+1).sum &&
    portBindingsMatch actual expected

/-- User, folder, mounts and ports as planned. -/
def verifyRuntime (inspection : ContainerInspection) (runtime : RuntimePlan) (ports : PortPlan) :
    Except ImageContainerError Unit := do
  require (inspection.user == runtime.containerUser.value)
    (.runtimeMismatch "container user")
  require (inspection.workingDirectory == runtime.workspace.folder.value)
    (.runtimeMismatch "workspace folder")
  let expectedMounts := runtime.workspace.mount::runtime.mounts
  require (inspection.mounts.length == expectedMounts.length &&
      expectedMounts.all fun expected =>
        inspection.mounts.any fun actual => mountMatches actual expected)
    (.runtimeMismatch "mounts")
  require (portsMatch inspection.ports ports) (.runtimeMismatch "ports")

/-- A mount whose record says all that was asked for. -/
structure PlainMount (mount : PlannedMount) : Prop where
  options : mount.options = []
  source : ∃ source, mount.source = some source ∧ ',' ∉ source
  target : ',' ∉ mount.target.value

/-- The address is absent where none was asked for, and otherwise written as it is printed. -/
def ShowsAddress (address : Text) : PublicationBinding → Prop
  | .loopback expected | .nonLoopback expected => address = expected.render
  | .allInterfaces => address ∈ [[],"0.0.0.0","::"]

/-- The host port is the one asked for, or any where the choice was left to Docker. -/
def ShowsHostPort (shown : Option ℕ) : Option ℕ → Prop
  | none => shown.isSome = true
  | some port => shown = some port

/-- The record of one publication is what another, or itself, asks for on a container port. -/
structure Confirms (shown asked : PublicationRequest) (port : ℕ) : Prop where
  covers : port ∈ rangePorts shown.containerPorts
  protocol : shown.protocol = asked.protocol
  address : ShowsAddress (requestedAddress shown) asked.binding
  host : ShowsHostPort (hostPortOf shown.hostPorts shown.containerPorts port)
    (hostPortOf asked.hostPorts asked.containerPorts port)

/-- What the comparison demands of the run arguments' settings and of the two plans. -/
structure Verifiable (extra : List Setting) (runtime : RuntimePlan) (ports : PortPlan) : Prop where
  no_mount : extra.filter (fun s => isMountOption s.option) = []
  no_publish : valuesOf "publish" extra = []
  mounts : ∀ mount ∈ runtime.workspace.mount::runtime.mounts, PlainMount mount
  ports : ∀ asked ∈ ports.publications, ∀ port ∈ rangePorts asked.containerPorts,
    ∃ shown ∈ ports.publications, Confirms shown asked port

/-- What the comparison demands of all settings that Docker reads. -/
structure Shows (generated : ℕ → Text) (settings : List Setting) (runtime : RuntimePlan)
    (ports : PortPlan) : Prop where
  user : (valuesOf "user" settings).getLast?.getD [] = runtime.containerUser.value
  workdir : (valuesOf "workdir" settings).getLast?.getD [] = runtime.workspace.folder.value
  mounts : ∃ mounts, (mountPoints generated settings).mapM mapMount = .ok mounts ∧
    mounts.length = (runtime.workspace.mount::runtime.mounts).length ∧
    ∀ expected ∈ runtime.workspace.mount::runtime.mounts,
      ∃ actual ∈ mounts, mountMatches actual expected = true
  ports : ∃ entries, (valuesOf "publish" settings).mapM publishedPorts = some entries ∧
    portsMatch entries.flatten ports = true

variable {inspection : ContainerInspection} {insp : InspectedMount} {mount : PlannedMount}
variable {generated : ℕ → Text} {ex : List PlannedMount} {ms : List InspectedMount}
variable {port : ℕ} {publications : List PublicationRequest} {actual : List InspectedPortBinding}

theorem verifyRuntime_eq_ok {rt : RuntimePlan} {ps : PortPlan} :
    verifyRuntime inspection rt ps = .ok () ↔ inspection.user = rt.containerUser.value ∧
      inspection.workingDirectory = rt.workspace.folder.value ∧
      (inspection.mounts.length = (rt.workspace.mount::rt.mounts).length ∧
        ∀ ex ∈ rt.workspace.mount::rt.mounts,
          ∃ actual ∈ inspection.mounts, mountMatches actual ex = true) ∧
      portsMatch inspection.ports ps = true := by
  simp only [verifyRuntime,bind_eq_ok,require_eq_ok,beq_iff_eq,Bool.and_eq_true,
    all_eq_true,any_eq_true]
  constructor
  · rintro ⟨-,hu,-,hf,-,hms,hp⟩
    exact ⟨hu,hf,hms,hp⟩
  · rintro ⟨hu,hf,hms,hp⟩
    exact ⟨(),hu,(),hf,(),hms,hp⟩

theorem mapContainer_eq_ok {ctr : ContainerInspectResponse}
    (h : mapContainer ctr = .ok inspection) :
    ∃ config ms, ctr.config = some config ∧ inspection.user = config.user.getD [] ∧
      inspection.workingDirectory = config.workingDir.getD [] ∧
      List.Forall₂ (fun point mount => mapMount point = .ok mount)
        (ctr.mounts.getD []) ms ∧ inspection.mounts.Perm ms ∧
      inspection.ports.Perm (inspectedPorts (ctr.portBindings.getD [])) := by
  simp only [mapContainer,bind_eq_ok,pure_eq_ok,required,orFail_eq_ok] at h
  obtain ⟨-,-,-,-,config,hc,-,-,ms,hms,-,-,-,-,-,-,rfl⟩ := h
  exact ⟨config,ms,hc,rfl,rfl,mapM_eq_ok.mp hms,perm_insertionSort _ _,perm_insertionSort _ _⟩

theorem mapMount_mountPoint {generated : Text} {mount : DockerMount} :
    mapMount (mountPoint generated mount) = .ok insp ↔ ∃ t, mount.target = some t ∧
        insp = ⟨mount.kind.getD "volume",if mount.kind.getD "volume" = "volume" then
            some (mount.source.getD generated) else mount.source,t,some []⟩ := by
  simp only [mapMount,mountPoint,bind_eq_ok,required,orFail_eq_ok,pure_eq_ok]
  split_ifs with hk <;>
    simp only [Option.some.injEq,exists_eq_left',hk,if_true,if_false,eq_comm (a := insp)]

def inspectedMount (generated : Text) (mount : PlannedMount) :
    Except BollardAdapterError InspectedMount :=
  mapMount (mountPoint generated (readMountArgument (mountArgument mount)))

theorem comma_not_mem_digest {text : Text} (h : isDigest text = true) : ',' ∉ text := by
  intro hc
  simp only [isDigest,Bool.and_eq_true,all_eq_true] at h
  exact absurd (h.2 ',' hc) (by decide)

theorem readMountArgument_comma {arg v : Text} :
    ((readMountArgument arg).source = some v → ',' ∉ v) ∧
      ((readMountArgument arg).target = some v → ',' ∉ v) :=
  ⟨assigned_comma,assigned_comma⟩

/-- With an empty mode no option is found again. -/
theorem options_eq_nil (hna : NamedOptions mount)
    (h : mount.options.all (fun opt => (([] : Text).splitOn ',').any fun v =>
      v == renderField (optionField opt)) = true)
    : mount.options = [] := by
  rw [eq_nil_iff_forall_not_mem]
  intro opt ho
  have hr := all_eq_true.mp h opt ho
  have hn := hna.options opt ho
  cases hv : opt.value <;>
    simp [optionField,hv,renderField,hn] at hr

/-- A mount that any record matches is plain. -/
theorem plain_of_matches {generated : Text} {rcd : PlannedMount}
    (hg : isDigest generated = true) (hn : NamedOptions mount)
    (hre : inspectedMount generated rcd = .ok insp)
    (h : mountMatches insp mount = true) : PlainMount mount := by
  obtain ⟨t,ht,rfl⟩ := mapMount_mountPoint.mp hre
  simp only [mountMatches,Bool.and_eq_true,beq_iff_eq,Option.getD_some] at h
  obtain ⟨⟨⟨hki,hso⟩,he⟩,ho⟩ := h
  refine ⟨options_eq_nil hn ho,?_,he ▸ readMountArgument_comma.2 ht⟩
  cases hk : mount.kind with
  | bind =>
    obtain ⟨src,hs⟩ := Option.isSome_iff_exists.mp (hn.source hk)
    refine ⟨src,hs,?_⟩
    rw [hki,hk,if_neg (by decide),hs] at hso
    exact readMountArgument_comma.1 hso
  | volume =>
    rw [hki,hk,if_pos (by decide)] at hso
    refine ⟨_,hso.symm,?_⟩
    cases hr : (readMountArgument (mountArgument rcd)).source with
    | none => exact comma_not_mem_digest hg
    | some src => exact readMountArgument_comma.1 hr

theorem PlainMount.matches (h : PlainMount mount) (generated : Text) :
    ∃ insp, inspectedMount generated mount = .ok insp ∧ mountMatches insp mount = true := by
  obtain ⟨ho,⟨src,hso,hco⟩,ht⟩ := h
  have hc : CleanMount mount := ⟨fun s hs => Option.some.inj (hs ▸ hso) ▸ hco,ht,by simp [ho]⟩
  have hr := (readsBack_clean hc).mpr (by simp [Restates,ho,assigned])
  refine ⟨_,mapMount_mountPoint.mpr ⟨mount.target.value,by rw [hr]; rfl,rfl⟩,?_⟩
  rw [hr]
  cases hk : mount.kind <;> simp [mountMatches,plannedMount,hk,hso,ho,kindText]

section
variable {insp : List InspectedMount}
  (hms : List.Forall₂ (fun point mount => mapMount point = .ok mount) (ex.zipIdx.map fun p =>
    mountPoint (generated p.2) (readMountArgument (mountArgument p.1))) ms)
  (hpe : insp.Perm ms)
include hms hpe

/-- The mounts of a record without passed-through mounts, found from either side. -/
theorem inspected_mounts :
    (∀ actual ∈ insp, ∃ rcd i, inspectedMount (generated i) rcd = .ok actual) ∧
      ∀ mount ∈ ex, ∃ i, ∃ actual ∈ insp, inspectedMount (generated i) mount = .ok actual := by
  constructor
  · intro actual ha
    obtain ⟨point,hp,hm⟩ := forall₂_mem_right hms (hpe.mem_iff.mp ha)
    obtain ⟨p,-,rfl⟩ := mem_map.mp hp
    exact ⟨p.1,p.2,hm⟩
  · intro mount hmo
    obtain ⟨i,hi,rfl⟩ := mem_iff_getElem.mp hmo
    have hme : (ex[i], i) ∈ ex.zipIdx := by
      simp [mem_zipIdx_iff_getElem?]
    obtain ⟨actual,ha,hm⟩ := forall₂_mem_left hms (mem_map_of_mem hme)
    exact ⟨i,actual,hpe.mem_iff.mpr ha,hm⟩

theorem mounts_match_iff (hg : ∀ i, isDigest (generated i) = true)
    (hn : ∀ mount ∈ ex, NamedOptions mount) :
    (∀ mount ∈ ex, ∃ actual ∈ insp, mountMatches actual mount = true) ↔
      ∀ mount ∈ ex, PlainMount mount := by
  obtain ⟨hf,hto⟩ := inspected_mounts hms hpe
  constructor
  · intro hal mount hm
    obtain ⟨actual,ha,hma⟩ := hal mount hm
    obtain ⟨rcd,i,hr⟩ := hf actual ha
    exact plain_of_matches (hg i) (hn mount hm) hr hma
  · intro hal mount hm
    obtain ⟨i,actual,ha,hr⟩ := hto mount hm
    obtain ⟨actual',hr',hma⟩ := (hal mount hm).matches (generated i)
    cases hr.symm.trans hr'
    exact ⟨actual,ha,hma⟩

end

theorem protocolText_inj {a b : PublicationProtocol} : protocolText a = protocolText b ↔ a = b := by
  cases a <;> cases b <;> decide

theorem containerKey_inj {m n : ℕ} {a b : PublicationProtocol} :
    decimal m++ '/'::protocolText a = decimal n++ '/'::protocolText b ↔ m = n ∧ a = b := by
  constructor
  · intro h
    have hs := congrArg (splitOnce '/') h
    rw [splitOnce_append _ (not_mem_decimal rfl m),splitOnce_append _ (not_mem_decimal rfl n)] at hs
    simpa [decimal_inj,protocolText_inj] using hs
  · rintro ⟨rfl,rfl⟩
    rfl

theorem bindingIpMatches_iff {addr : Text} {binding : PublicationBinding} :
    bindingIpMatches (some addr) binding = true ↔ ShowsAddress addr binding := by
  cases binding <;> simp [bindingIpMatches,ShowsAddress]

theorem mem_rangePorts {rg : PortRange} (h : rg.first.value ≤ rg.last.value) :
    port ∈ rangePorts rg ↔ rg.first.value ≤ port ∧ port ≤ rg.last.value := by
  rw [rangePorts,mem_range'_1]
  omega

theorem length_rangePorts {rg : PortRange} (h : rg.first.value ≤ rg.last.value) :
    (rangePorts rg).length = rg.width+1 := by
  rw [rangePorts,length_range',PortRange.width]
  omega

theorem hostPortOf_bounds {pub : PublicationRequest} {hst : ℕ}
    (h : PlannedPublication pub) (hp : port ∈ rangePorts pub.containerPorts)
    (hh : hostPortOf pub.hostPorts pub.containerPorts port = some hst) :
    0 < hst ∧ hst < 65536 := by
  obtain ⟨rg,hr,rfl⟩ := Option.map_eq_some_iff.mp hh
  obtain ⟨ho,hw⟩ := h.hostPorts rg hr
  have hm := (mem_rangePorts h.ordered).mp hp
  have hpo := rg.first.positive
  have hb := rg.last.bounded
  simp only [PortRange.width] at hw
  omega

/-- The test of one binding, which `portBound` makes of all of them. -/
def bindsPort (asked : PublicationRequest) (port : ℕ) (binding : InspectedPortBinding) : Bool :=
  binding.container == decimal port++ '/'::protocolText asked.protocol &&
    bindingIpMatches binding.hostIp asked.binding &&
    match asked.hostPorts with
    | none => binding.hostPort.any fun value => (parseU16 value).any (0 < ·)
    | some range => binding.hostPort ==
        some (decimal (range.first.value+(port - asked.containerPorts.first.value)))

variable {asked : PublicationRequest}

theorem bindsPort_portEntry {m : ℕ} {pr : PublicationProtocol} {addr : Text}
    {shown : Option ℕ} (hbo : ∀ hst, shown = some hst → 0 < hst ∧ hst < 65536) :
    bindsPort asked port (portEntry pr addr shown m) = true ↔
      m = port ∧ pr = asked.protocol ∧ ShowsAddress addr asked.binding ∧
        ShowsHostPort shown (hostPortOf asked.hostPorts asked.containerPorts port) := by
  have hh : (match asked.hostPorts with
      | none => (some ((shown.map decimal).getD [])).any fun v => (parseU16 v).any (0 < ·)
      | some rg => some ((shown.map decimal).getD []) ==
          some (decimal (rg.first.value+(port - asked.containerPorts.first.value)))) = true ↔
      ShowsHostPort shown (hostPortOf asked.hostPorts asked.containerPorts port) := by
    cases shown with
    | none =>
      cases asked.hostPorts with
      | none => simp [ShowsHostPort,hostPortOf,parseU16,stripPrefix]
      | some rg =>
        have hne : ∀ n, decimal n ≠ [] := fun n => Nat.toDigits_ne_nil
        simp [ShowsHostPort,hostPortOf,hne]
    | some hst =>
      obtain ⟨hp,hb⟩ := hbo hst rfl
      cases asked.hostPorts with
      | none => simp [ShowsHostPort,hostPortOf,parseU16_decimal hb,hp]
      | some rg => simp [ShowsHostPort,hostPortOf,decimal_inj]
  rw [bindsPort,Bool.and_eq_true,Bool.and_eq_true,beq_iff_eq]
  simp only [portEntry]
  rw [containerKey_inj,bindingIpMatches_iff,hh,and_assoc,and_assoc]

theorem portBound_iff (hpl : ∀ pub ∈ publications, PlannedPublication pub)
    (hac : actual.Perm (publications.flatMap publicationEntries)) :
    portBound actual asked port = true ↔ ∃ shown ∈ publications, Confirms shown asked port := by
  have han : portBound actual asked port = true ↔
      ∃ bd ∈ actual, bindsPort asked port bd = true := any_eq_true
  rw [han]
  constructor
  · rintro ⟨bd,hb,hbi⟩
    obtain ⟨shown,hs,he⟩ := mem_flatMap.mp (hac.mem_iff.mp hb)
    obtain ⟨m,hm,rfl⟩ := mem_map.mp he
    obtain ⟨rfl,hp,ha,hho⟩ := (bindsPort_portEntry fun hst hh =>
      hostPortOf_bounds (hpl shown hs) hm hh).mp hbi
    exact ⟨shown,hs,hm,hp,ha,hho⟩
  · rintro ⟨shown,hs,hpo,hp,ha,hho⟩
    refine ⟨_,hac.mem_iff.mpr (mem_flatMap.mpr ⟨shown,hs,mem_map_of_mem hpo⟩),?_⟩
    exact (bindsPort_portEntry fun hst hh => hostPortOf_bounds (hpl shown hs) hpo hh).mpr
      ⟨rfl,hp,ha,hho⟩

/-- Every publication that can be read publishes a port. -/
theorem publishedPorts_ne_nil {arg : Text} {es : List InspectedPortBinding}
    (h : publishedPorts arg = some es) : es ≠ [] := by
  simp only [publishedPorts,Option.bind_eq_bind,Option.bind_eq_some_iff,Option.pure_def,
    Option.some.injEq] at h
  obtain ⟨⟨v,pr⟩,-,⟨addr,hst,ctr⟩,-,cps,hc,hostPorts,-,rfl⟩ := h
  have hl := length_rangePorts (parseRange_ordered hc)
  intro hn
  rw [map_eq_nil_iff] at hn
  rw [hn,length_nil] at hl
  omega

theorem length_publicationEntries (hpl : ∀ pub ∈ publications, PlannedPublication pub) :
    (publications.flatMap publicationEntries).length =
      (publications.map fun pub => pub.containerPorts.width+1).sum := by
  rw [length_flatMap]
  congr 1
  refine map_congr_left fun pub hp => ?_
  rw [publicationEntries,length_map,length_rangePorts (hpl pub hp).ordered]

theorem portsMatch_iff {ps : PortPlan} {passed : List Text} {es : List (List InspectedPortBinding)}
    (hpl : ∀ pub ∈ ps.publications, PlannedPublication pub)
    (hen : (passed++ps.publications.map (·.argument)).mapM publishedPorts = some es)
    (ha : actual.Perm es.flatten) :
    portsMatch actual ps = true ↔ passed = [] ∧
      ∀ asked ∈ ps.publications, ∀ port ∈ rangePorts asked.containerPorts,
        ∃ shown ∈ ps.publications, Confirms shown asked port := by
  have ho : (ps.publications.map (·.argument)).mapM publishedPorts =
      some (ps.publications.map publicationEntries) := by
    rw [mapM_eq_some,forall₂_map_left_iff,forall₂_map_right_iff,forall₂_same]
    exact fun pub hp => (hpl pub hp).published
  rw [mapM_append,ho] at hen
  obtain ⟨passedEntries,hpa,he⟩ := Option.bind_eq_some_iff.mp hen
  cases he
  have hf : (passedEntries++ps.publications.map publicationEntries).flatten =
      passedEntries.flatten++ps.publications.flatMap publicationEntries := by
    rw [flatten_append,flatMap_def]
  rw [hf] at ha
  -- The count leaves no room for an entry that the plan does not ask for.
  have hc : actual.length = (ps.publications.map fun pub =>
      pub.containerPorts.width+1).sum ↔ passed = [] := by
    rw [ha.length_eq,length_append,length_publicationEntries hpl,
      Nat.add_eq_right,length_eq_zero_iff,flatten_eq_nil_iff]
    constructor
    · intro hem
      rw [eq_nil_iff_forall_not_mem]
      intro arg har
      obtain ⟨rd,hr,hs⟩ := forall₂_mem_left (mapM_eq_some.mp hpa) har
      exact publishedPorts_ne_nil hs (hem rd hr)
    · rintro rfl
      cases hpa
      simp
  simp only [portsMatch,portBindingsMatch,Bool.and_eq_true,beq_iff_eq,hc,all_eq_true]
  refine and_congr_right fun hn => ?_
  subst hn
  cases hpa
  simp only [portBound_iff hpl ha]

theorem mountPoints_owned (generated : ℕ → Text) (ms : List PlannedMount) :
    ((ms.map fun mount => (⟨"mount",some (mountArgument mount),false⟩ : Setting)).zipIdx.map
        fun p => settingPoint (generated p.2) p.1) =
      ms.zipIdx.map fun p => mountPoint (generated p.2)
        (readMountArgument (mountArgument p.1)) := by
  rw [zipIdx_map,map_map]
  rfl

section
variable {table : OptionTable} {generated : ℕ → Text} {request : DockerCreateRequest}
  {argv : List Text} {extra : List Setting} {running : Bool} {response : ContainerInspectResponse}
  {inspection : ContainerInspection}

theorem portsMatch_perm {actual shown : List InspectedPortBinding} (h : actual.Perm shown)
    (ps : PortPlan) : portsMatch actual ps = portsMatch shown ps := by
  have hb : portBound actual = portBound shown := by
    funext pub port
    exact Bool.eq_iff_iff.mpr (by simp only [portBound,any_eq_true,h.mem_iff])
  simp only [portsMatch,portBindingsMatch,h.length_eq,hb]

/-- What an inspection shows of a recorded vector, up to the order of mounts and ports. -/
theorem inspected_of_records {set : List Setting} (hs : createSettings table argv = set)
    (hr : Records table generated argv running response)
    (hi : mapContainer response = .ok inspection) : ∃ read es,
      inspection.user = (valuesOf "user" set).getLast?.getD [] ∧
      inspection.workingDirectory = (valuesOf "workdir" set).getLast?.getD [] ∧
      List.Forall₂ (fun point mount => mapMount point = .ok mount) (mountPoints generated set) read ∧
      inspection.mounts.Perm read ∧ (valuesOf "publish" set).mapM publishedPorts = some es ∧
        inspection.ports.Perm es.flatten := by
  subst hs
  obtain ⟨config,ms,hc,hu,hf,hms,hpe,hpo⟩ := mapContainer_eq_ok hi
  obtain ⟨lbs,hc'⟩ := hr.config
  obtain ⟨points,hps,hp⟩ := hr.mounts
  obtain ⟨bindings,es,hb,he,hen⟩ := hr.ports
  cases hc.symm.trans hc'
  rw [hps,Option.getD_some] at hms
  rw [hb,Option.getD_some] at hpo
  obtain ⟨read,hre,hpm⟩ := perm_comp_forall₂ hp.symm hms
  exact ⟨read,es,hu,hf,hre,hpe.trans hpm.symm,he,hpo.trans hen⟩

theorem verifyRuntime_shows {rt : RuntimePlan} {ps : PortPlan}
    (hr : Records table generated argv running response)
    (hi : mapContainer response = .ok inspection) :
    verifyRuntime inspection rt ps = .ok () ↔
      Shows generated (createSettings table argv) rt ps := by
  obtain ⟨read,es,hu,hf,hre,hpr,he,hen⟩ := inspected_of_records rfl hr hi
  rw [verifyRuntime_eq_ok,portsMatch_perm hen,hpr.length_eq,hu,hf]
  simp only [hpr.mem_iff]
  constructor
  · rintro ⟨hu,hf,hm,hps⟩
    exact ⟨hu,hf,⟨read,mapM_eq_ok.mpr hre,hm⟩,es,he,hps⟩
  · rintro ⟨hu,hf,⟨read',hre',hm⟩,es',he',hps⟩
    cases (mapM_eq_ok.mpr hre).symm.trans hre'
    cases he.symm.trans he'
    exact ⟨hu,hf,hm,hps⟩

theorem verifyRuntime_record (hk : KnowsCreateOptions table)
    (het : readAll table request.runArguments = some extra)
    (ha : createArguments request = .ok argv)
    (hg : ∀ i, isDigest (generated i) = true)
    (hna : ∀ mount ∈ request.runtime.workspace.mount::request.runtime.mounts, NamedOptions mount)
    (hpa : ∀ pub ∈ request.ports.publications, PlannedPublication pub)
    (hr : Records table generated argv running response)
    (hi : mapContainer response = .ok inspection) :
    verifyRuntime inspection request.runtime request.ports = .ok () ↔
      Verifiable extra request.runtime request.ports := by
  obtain ⟨read,es,hu,hf,hms,hpe,he,hen⟩ :=
    inspected_of_records (createSettings_eq hk het ha) hr hi
  simp only [valuesOf_append,owned_user,owned_workdir,getLast?_append_cons,
    getLast?_singleton,Option.getD_some] at hu hf
  rw [valuesOf_append,owned_publish] at he
  rw [mountPoints,filter_append,owned_mounts] at hms
  have hl : inspection.mounts.length = (extra.filter fun s => isMountOption s.option).length +
        (request.runtime.workspace.mount::request.runtime.mounts).length := by
    rw [hpe.length_eq,← hms.length_eq]
    simp
  rw [verifyRuntime_eq_ok,portsMatch_iff hpa he hen,hl,Nat.add_eq_right,length_eq_zero_iff]
  constructor
  · rintro ⟨-,-,⟨hn,hm⟩,hpu,hsh⟩
    rw [hn,nil_append,mountPoints_owned] at hms
    exact ⟨hn,hpu,(mounts_match_iff hms hpe hg hna).mp hm,hsh⟩
  · rintro ⟨hn,hpu,hpl,hsh⟩
    rw [hn,nil_append,mountPoints_owned] at hms
    exact ⟨hu,hf,⟨hn,(mounts_match_iff hms hpe hg hna).mpr hpl⟩,hpu,hsh⟩

/-- The inspections before and after the start both pass exactly when the run arguments are
complete options and, with the plans, leave nothing for Docker to record in another way; or when
Docker stops reading in the run arguments, and they alone set all that the comparison looks at. -/
theorem verifyRuntime_recorded_iff {digest : OrderedMap Text Text → List ℕ}
    {jsonString : Text → Text} {profile : RawProfile} {effective : EffectiveMetadata}
    {inputs : RuntimePlanningInputs} {started : ContainerInspectResponse}
    {startedInspection : ContainerInspection}
    (hruntime : planRuntime digest profile effective inputs = .ok request.runtime)
    (hports : planPorts jsonString profile effective = .ok request.ports)
    (hargv : createArguments request = .ok argv) (hknows : KnowsCreateOptions table)
    (hgenerated : ∀ i, isDigest (generated i) = true)
    (hcreated : Records table generated argv false response)
    (hstarted : Records table generated argv true started)
    (hinspected : mapContainer response = .ok inspection)
    (hstartedInspected : mapContainer started = .ok startedInspection) :
    (verifyRuntime inspection request.runtime request.ports = .ok () ∧
        verifyRuntime startedInspection request.runtime request.ports = .ok ()) ↔
      (∃ extra, readAll table request.runArguments = some extra ∧
        Verifiable extra request.runtime request.ports) ∨
      readAll table request.runArguments = none ∧
        Shows generated (createSettings table argv) request.runtime request.ports := by
  cases hre : readAll table request.runArguments with
  | none =>
    rw [verifyRuntime_shows hcreated hinspected,verifyRuntime_shows hstarted hstartedInspected]
    simp
  | some extra =>
    obtain ⟨src,hpl⟩ := planRuntime_eq_ok hruntime
    have hn := plannedMounts_named hpl
    have hp := planPorts_planned hports
    rw [verifyRuntime_record hknows hre hargv hgenerated hn hp hcreated hinspected,
      verifyRuntime_record hknows hre hargv hgenerated hn hp hstarted hstartedInspected]
    simp

end

/-- The plan of the sample profile with additional mounts. -/
def sampleRuntime (mounts : List PlannedMount) : RuntimePlan :=
  { RuntimePlan.sample with
    mounts
    containerUser := ⟨"root",by decide⟩
    remoteUser := ⟨"root",by decide⟩
    uidUpdate := .none .rootUser
    userEnvProbe := .loginInteractiveShell }

def samplePorts : PortPlan where
  publications := [⟨"127.0.0.1:3000:3000",.loopback (.v4 [127,0,0,1]),
    some ⟨.sample,.sample⟩,⟨.sample,.sample⟩,.tcp⟩]

def samplePortProfile : RawProfile :=
  { MountArguments.sampleProfile with common := { appPorts := [.number 3000] } }

def sampleRequest (mounts : List PlannedMount) : DockerCreateRequest :=
  { CreateArguments.sampleRequest ["--env","A=b"] with
    runtime := sampleRuntime mounts
    ports := samplePorts }

def sampleArguments (mounts : List PlannedMount) : List Text :=
  "create".toList::(sampleRequest mounts).runArguments++ownedCreateArguments (sampleRequest mounts)

def sampleResponse (mounts : List PlannedMount) (running : Bool) : ContainerInspectResponse :=
  recorded CreateArguments.createTable (fun _ => List.replicate 64 'a') (sampleArguments mounts)
    running (List.replicate 64 'b') "/app-1" ("sha256:"++List.replicate 64 'c')
    (samplePorts.publications.map publicationEntries)

theorem sampleResponse_records (ms : List PlannedMount) (running : Bool)
    (ha : (parse CreateArguments.createTable 0 (sampleArguments ms).tail).positional.isSome = true)
    (h : (valuesOf "publish" (createSettings CreateArguments.createTable
      (sampleArguments ms))).mapM publishedPorts =
        some (samplePorts.publications.map publicationEntries)) :
    Records CreateArguments.createTable (fun _ => List.replicate 64 'a') (sampleArguments ms)
      running (sampleResponse ms running) :=
  records_recorded ha h _ _ _ _ _

theorem createTable_knows : KnowsCreateOptions CreateArguments.createTable := ⟨by decide,by decide⟩

def dataVolume (options : List MountOption) : PlannedMount :=
  ⟨.volume,some "data",⟨"/data",by decide⟩,options⟩

theorem verifyRuntime_recorded_volume : ∃ created started,
      mapContainer (sampleResponse [dataVolume []] false) = .ok created ∧
      mapContainer (sampleResponse [dataVolume []] true) = .ok started ∧
      verifyRuntime created (sampleRuntime [dataVolume []]) samplePorts = .ok () ∧
      verifyRuntime started (sampleRuntime [dataVolume []]) samplePorts = .ok () ∧
      ∃ extra, readAll CreateArguments.createTable ["--env","A=b"] = some extra ∧
        Verifiable extra (sampleRuntime [dataVolume []]) samplePorts := by
  have hv : ∀ running, ∃ c, mapContainer (sampleResponse [dataVolume []] running) = .ok c ∧
      verifyRuntime c (sampleRuntime [dataVolume []]) samplePorts = .ok () := by
    intro running
    cases running
    all_goals exact exists_ok_and (by decide +kernel) fun _ _ h => h
  obtain ⟨created,hc,hf⟩ := hv false
  obtain ⟨started,hst,hs⟩ := hv true
  have hpl : planRuntime (fun _ => []) samplePortProfile
      (sampleMetadata "type=volume,source=data,target=/data") sampleInputs =
        .ok (sampleRequest [dataVolume []]).runtime := by decide +kernel
  have hpo : planPorts id samplePortProfile
      (sampleMetadata "type=volume,source=data,target=/data") =
        .ok (sampleRequest [dataVolume []]).ports := by decide +kernel
  have hp : (valuesOf "publish" (createSettings CreateArguments.createTable
      (sampleArguments [dataVolume []]))).mapM publishedPorts =
        some (samplePorts.publications.map publicationEntries) := by decide +kernel
  have ha : (parse CreateArguments.createTable 0
      (sampleArguments [dataVolume []]).tail).positional.isSome = true := by decide +kernel
  have hve := (verifyRuntime_recorded_iff hpl hpo (by decide +kernel)
    createTable_knows (fun _ => by decide +kernel) (sampleResponse_records _ false ha hp)
    (sampleResponse_records _ true ha hp) hc hst).mp ⟨hf,hs⟩
  exact ⟨created,started,hc,hst,hf,hs,hve.resolve_right fun h => by cases h.1⟩

/-- Docker records no option of a mount in its mode, so the plan is refused. -/
theorem verifyRuntime_recorded_readonly : planRuntime (fun _ => []) samplePortProfile
        (sampleMetadata "type=volume,source=data,target=/data,readonly") sampleInputs =
      .ok (sampleRequest [dataVolume [⟨"readonly",none⟩]]).runtime ∧
    planPorts id samplePortProfile
        (sampleMetadata "type=volume,source=data,target=/data,readonly") =
      .ok (sampleRequest [dataVolume [⟨"readonly",none⟩]]).ports ∧
    createArguments (sampleRequest [dataVolume [⟨"readonly",none⟩]]) =
      .ok (sampleArguments [dataVolume [⟨"readonly",none⟩]]) ∧
    Records CreateArguments.createTable (fun _ => List.replicate 64 'a')
      (sampleArguments [dataVolume [⟨"readonly",none⟩]]) false
      (sampleResponse [dataVolume [⟨"readonly",none⟩]] false) ∧
    ∃ created, mapContainer (sampleResponse [dataVolume [⟨"readonly",none⟩]] false) = .ok created ∧
      verifyRuntime created (sampleRuntime [dataVolume [⟨"readonly",none⟩]]) samplePorts =
        .error (.runtimeMismatch "mounts") :=
  ⟨by decide +kernel,by decide +kernel,by decide +kernel,
    sampleResponse_records _ false (by decide +kernel) (by decide +kernel),
    exists_ok_and (by decide +kernel) fun _ _ h => h⟩

end Cdenv.RuntimeVerification
