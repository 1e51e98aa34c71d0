import Cdenv.DockerCommand
import Cdenv.MetadataMerge

/-!
# Host requirements against what the host offers

The merged requirements are evaluated against capabilities that were measured or could not be. The
merge keeps the larger of two numbers and the stronger of two GPU demands, so that whatever passes
for the merged requirements passes for each contribution to them.
-/
namespace Cdenv.HostEvaluation
open Fallible MetadataMerge List
open DockerCommand (GpuAccessIntent)

inductive UnknownMeasurement where
  | unmeasurable | probeUnavailable

inductive Measured (α : Type) where
  | reliable (value : α)
  | unknown (reason : UnknownMeasurement)

structure GpuCapabilities where
  (cores memoryBytes : Option ℕ)

/-- A GPU that is reliably absent is `reliable none`. -/
structure HostCapabilities where
  (cpus memoryBytes storageBytes : Measured ℕ)
  gpu : Measured (Option GpuCapabilities)

inductive HostResource where
  | cpu | memory | storage | gpu | gpuCores | gpuMemory

def HostResource.propertyPath : HostResource → Text
  | .cpu => "$.hostRequirements.cpus"
  | .memory => "$.hostRequirements.memory"
  | .storage => "$.hostRequirements.storage"
  | .gpu => "$.hostRequirements.gpu"
  | .gpuCores => "$.hostRequirements.gpu.cores"
  | .gpuMemory => "$.hostRequirements.gpu.memory"

inductive HostRequirementWarningKind where
  | unknown (reason : UnknownMeasurement)
  | optionalGpuUnavailable
  | optionalGpuUnknown (reason : UnknownMeasurement)
  | gpuDetailUnknown

structure HostRequirementWarning where
  resource : HostResource
  kind : HostRequirementWarningKind

structure HostRequirementEvaluation where
  warnings : List HostRequirementWarning
  gpuAccess : GpuAccessIntent

structure HostRequirementError where
  propertyPath : Text
  resource : HostResource

/-- The error about a resource names the property that asks for it. -/
def unmet (resource : HostResource) : HostRequirementError := ⟨resource.propertyPath,resource⟩

/-- The evaluation's own reading of a size, apart from the one of the merge. -/
def byteQuantity (value : Text) : Option ℕ := do
  let digits := (value.takeWhile Char.isDigit).length
  let text := value.take digits
  guard (text ≠ [])
  let number := Nat.ofDigitChars 10 text 0
  guard (number < 2^64)
  let multiplier ← multiplier (value.drop digits)
  guard (number*multiplier < 2^64)
  return number*multiplier

abbrev Evaluating := Except HostRequirementError

/-- Only reliable evidence rejects; what is unknown is let through with a warning. -/
def evaluateScalar (measured : Measured ℕ) (resource : HostResource) (required : ℕ)
    (warnings : List HostRequirementWarning) : Evaluating (List HostRequirementWarning) :=
  match measured with
  | .reliable available =>
    if available < required then .error (unmet resource) else .ok warnings
  | .unknown reason => .ok (warnings++[⟨resource,.unknown reason⟩])

def whenStated {α : Type} (required : Option α)
    (check : α → List HostRequirementWarning → Evaluating (List HostRequirementWarning))
    (warnings : List HostRequirementWarning) : Evaluating (List HostRequirementWarning) :=
  match required with
  | none => .ok warnings
  | some required => check required warnings

def onBytes (resource : HostResource)
    (check : ℕ → List HostRequirementWarning → Evaluating (List HostRequirementWarning))
    (text : Text) (warnings : List HostRequirementWarning) :
    Evaluating (List HostRequirementWarning) := do
  let required ← orFail (byteQuantity text) (unmet resource)
  check required warnings

def requireGpu (measured : Measured (Option GpuCapabilities))
    (warnings : List HostRequirementWarning) :
    Evaluating (Option GpuCapabilities × List HostRequirementWarning) :=
  match measured with
  | .reliable none => .error (unmet .gpu)
  | .reliable gpu => .ok (gpu, warnings)
  | .unknown reason => .ok (none, warnings++[⟨.gpu,.unknown reason⟩])

def evaluateDetail (available : Option ℕ) (resource : HostResource) (required : ℕ)
    (warnings : List HostRequirementWarning) : Evaluating (List HostRequirementWarning) :=
  match available with
  | some available => if available < required then .error (unmet resource) else .ok warnings
  | none => .ok (warnings++[⟨resource,.gpuDetailUnknown⟩])

/-- Whether a GPU is asked for, and the warnings. -/
def evaluateGpu (requirement : Option GpuRequirement)
    (measured : Measured (Option GpuCapabilities)) (warnings : List HostRequirementWarning) :
    Evaluating (GpuAccessIntent × List HostRequirementWarning) :=
  match requirement with
  | none => .ok (.none, warnings)
  | some .notRequired => .ok (.none, warnings)
  | some .optional =>
    match measured with
    | .reliable (some _) => .ok (.requested, warnings)
    | .reliable none => .ok (.none, warnings++[⟨.gpu,.optionalGpuUnavailable⟩])
    | .unknown reason => .ok (.none, warnings++[⟨.gpu,.optionalGpuUnknown reason⟩])
  | some .required => do
    let found ← requireGpu measured warnings
    return (.requested, found.2)
  | some (.detailed cores memory) => do
    let found ← requireGpu measured warnings
    let warnings ←
      whenStated cores (evaluateDetail (found.1.bind (·.cores)) .gpuCores) found.2
    let warnings ← whenStated memory
      (onBytes .gpuMemory (evaluateDetail (found.1.bind (·.memoryBytes)) .gpuMemory)) warnings
    return (.requested, warnings)

/-- The requirements in the order of the source. -/
def evaluateHostRequirements (requirements : Option HostRequirements)
    (capabilities : HostCapabilities) : Evaluating HostRequirementEvaluation :=
  match requirements with
  | none => .ok ⟨[],.none⟩
  | some requirements => do
    let warnings ← whenStated requirements.cpus (evaluateScalar capabilities.cpus .cpu) []
    let warnings ← whenStated requirements.memory
      (onBytes .memory (evaluateScalar capabilities.memoryBytes .memory)) warnings
    let warnings ← whenStated requirements.storage
      (onBytes .storage (evaluateScalar capabilities.storageBytes .storage)) warnings
    let gpu ← evaluateGpu requirements.gpu capabilities.gpu warnings
    return ⟨gpu.2,gpu.1⟩

theorem byteQuantity_eq_sizeBytes (value : Text) : byteQuantity value = sizeBytes value := by
  have ht : value.take (value.takeWhile Char.isDigit).length = value.takeWhile Char.isDigit :=
    (prefix_iff_eq_take.mp ( takeWhile_prefix _)).symm
  have hd : value.drop (value.takeWhile Char.isDigit).length = value.dropWhile Char.isDigit := by
    have hs := takeWhile_append_dropWhile (p := Char.isDigit) (l := value)
    exact append_cancel_left ((ht ▸ take_append_drop _ value).trans hs.symm)
  simp only [byteQuantity,sizeBytes,ht,hd]

def Measured.value {α : Type} : Measured α → Option α
  | .reliable value => some value
  | .unknown _ => none

def Within (available : Option ℕ) (required : ℕ) : Prop := ∀ n ∈ available, required ≤ n

def NumberMet (required available : Option ℕ) : Prop := ∀ n ∈ required, Within available n

def SizeMet (required : Option Text) (available : Option ℕ) : Prop :=
  ∀ text ∈ required, ∃ n, sizeBytes text = some n ∧ Within available n

def GpuMet (measured : Measured (Option GpuCapabilities)) : GpuRequirement → Prop
  | .notRequired => True
  | .optional => True
  | .required => measured ≠ .reliable none
  | .detailed cores memory =>
    measured ≠ .reliable none ∧
    NumberMet cores (measured.value.join.bind (·.cores)) ∧
    SizeMet memory (measured.value.join.bind (·.memoryBytes))

def gpuIntent (measured : Measured (Option GpuCapabilities)) : GpuRequirement → GpuAccessIntent
  | .notRequired => .none
  | .optional => if measured.value.join.isSome then .requested else .none
  | .required => .requested
  | .detailed _ _ => .requested

/-- No GPU requirement is the same as none being required. -/
def gpuOf (requirements : HostRequirements) : GpuRequirement :=
  requirements.gpu.getD .notRequired

@[mk_iff]
structure Met (capabilities : HostCapabilities) (requirements : HostRequirements) : Prop where
  cpus : NumberMet requirements.cpus capabilities.cpus.value
  memory : SizeMet requirements.memory capabilities.memoryBytes.value
  storage : SizeMet requirements.storage capabilities.storageBytes.value
  gpu : GpuMet capabilities.gpu (gpuOf requirements)

def Passes {α : Type} (x : Evaluating α) : Prop := ∃ a, x = .ok a

theorem passes_ok {α : Type} (a : α) : Passes (.ok a) := ⟨a,rfl⟩

theorem passes_bind {α β : Type} {x : Evaluating α} {f : α → Evaluating β} {P Q : Prop}
    (hx : Passes x ↔ P) (hf : ∀ a, x = .ok a → (Passes (f a) ↔ Q)) : Passes (x >>= f) ↔ P ∧ Q := by
  rw [← hx]
  constructor
  · rintro ⟨b,hb⟩
    obtain ⟨a,ha,hfa⟩ := bind_eq_ok.mp hb
    exact ⟨⟨a,ha⟩,(hf a ha).mp ⟨b,hfa⟩⟩
  · rintro ⟨⟨a,ha⟩,hq⟩
    obtain ⟨b,hb⟩ := (hf a ha).mpr hq
    exact ⟨b,bind_eq_ok.mpr ⟨a,ha,hb⟩⟩

theorem passes_return {α β : Type} {x : Evaluating α} {f : α → β} {P : Prop}
    (hx : Passes x ↔ P) : Passes (x >>= fun a => pure (f a)) ↔ P :=
  (passes_bind hx fun a _ => iff_of_true (passes_ok (f a)) trivial).trans (and_iff_left trivial)

variable {warnings : List HostRequirementWarning} {resource : HostResource}
  {measured : Measured (Option GpuCapabilities)} {caps : HostCapabilities}

theorem passes_evaluateScalar {required : ℕ} {measured : Measured ℕ} :
    Passes (evaluateScalar measured resource required warnings) ↔
      Within measured.value required := by
  cases measured with
  | reliable available =>
    simp only [evaluateScalar,Passes,Within,Measured.value]
    split_ifs <;> simp <;> omega
  | unknown reason => simp [evaluateScalar,Passes,Within,Measured.value]

variable {available : Option ℕ}

theorem passes_evaluateDetail {required : ℕ} :
    Passes (evaluateDetail available resource required warnings) ↔ Within available required := by
  cases available with
  | some available =>
    simp only [evaluateDetail,Passes,Within]
    split_ifs <;> simp <;> omega
  | none => simp [evaluateDetail,Passes,Within]

theorem passes_whenStated {α : Type} {rq : Option α} {P : α → Prop}
    {check : α → List HostRequirementWarning → Evaluating (List HostRequirementWarning)}
    (hc : ∀ a warnings, Passes (check a warnings) ↔ P a) :
    Passes (whenStated rq check warnings) ↔ ∀ a ∈ rq, P a := by
  cases rq with
  | none => simp [whenStated,Passes]
  | some a => simpa [whenStated] using hc a warnings

theorem passes_onBytes {t : Text}
    {check : ℕ → List HostRequirementWarning → Evaluating (List HostRequirementWarning)}
    (hc : ∀ n warnings, Passes (check n warnings) ↔ Within available n) :
    Passes (onBytes resource check t warnings) ↔
      ∃ n, sizeBytes t = some n ∧ Within available n := by
  rw [onBytes,byteQuantity_eq_sizeBytes]
  cases hs : sizeBytes t with
  | none => simp [Passes,orFail,bind,Except.bind]
  | some n => simpa [orFail,bind,Except.bind] using hc n warnings

theorem passes_requireGpu : Passes (requireGpu measured warnings) ↔ measured ≠ .reliable none := by
  rcases measured with (_ | gpu) | reason <;> simp [requireGpu,Passes]

/-- A GPU that is let through is the one that was measured. -/
theorem requireGpu_eq_ok {fs : Option GpuCapabilities × List HostRequirementWarning}
    (h : requireGpu measured warnings = .ok fs) : fs.1 = measured.value.join := by
  rcases measured with (_ | gpu) | reason <;> cases h <;> rfl

variable {requirement : Option GpuRequirement} {requirements : HostRequirements} {source : Text}
variable {cur merged : Option HostRequirements}

theorem passes_evaluateGpu : Passes (evaluateGpu requirement measured warnings) ↔
      GpuMet measured (requirement.getD .notRequired) := by
  rcases requirement with _ | _ | _ | _ | ⟨cores,memory⟩
  · exact iff_of_true (passes_ok _) trivial
  · exact passes_return passes_requireGpu
  · exact iff_of_true (passes_ok _) trivial
  · refine iff_of_true ?_ trivial
    rcases measured with (_ | gpu) | reason <;> exact passes_ok _
  · refine passes_bind passes_requireGpu fun fs hf => ?_
    rw [← requireGpu_eq_ok hf]
    refine passes_bind (passes_whenStated fun _ _ => passes_evaluateDetail) fun _ _ => ?_
    exact passes_return (passes_whenStated fun _ _ => passes_onBytes fun _ _ =>
      passes_evaluateDetail)

theorem evaluateGpu_access {a : GpuAccessIntent × List HostRequirementWarning}
    (h : evaluateGpu requirement measured warnings = .ok a) :
    a.1 = gpuIntent measured (requirement.getD .notRequired) := by
  rcases requirement with _ | _ | _ | _ | ⟨cores,memory⟩
  · cases h
    rfl
  · obtain ⟨_,_,ha⟩ := bind_eq_ok.mp h
    cases ha
    rfl
  · cases h
    rfl
  · rcases measured with (_ | gpu) | reason <;> cases h <;> rfl
  · obtain ⟨_,_,h⟩ := bind_eq_ok.mp h
    obtain ⟨_,_,h⟩ := bind_eq_ok.mp h
    obtain ⟨_,_,ha⟩ := bind_eq_ok.mp h
    cases ha
    rfl

theorem passes_evaluateHostRequirements :
    Passes (evaluateHostRequirements (some requirements) caps) ↔ Met caps requirements := by
  rw [met_iff]
  refine passes_bind (passes_whenStated fun _ _ => passes_evaluateScalar) fun _ _ => ?_
  refine passes_bind (passes_whenStated fun _ _ => passes_onBytes fun _ _ =>
    passes_evaluateScalar) fun _ _ => ?_
  refine passes_bind (passes_whenStated fun _ _ => passes_onBytes fun _ _ =>
    passes_evaluateScalar) fun _ _ => ?_
  exact passes_return passes_evaluateGpu

theorem evaluateHostRequirements_access {ev : HostRequirementEvaluation}
    (h : evaluateHostRequirements (some requirements) caps = .ok ev) :
    ev.gpuAccess = gpuIntent caps.gpu (gpuOf requirements) := by
  obtain ⟨_,_,h⟩ := bind_eq_ok.mp h
  obtain ⟨_,_,h⟩ := bind_eq_ok.mp h
  obtain ⟨_,_,h⟩ := bind_eq_ok.mp h
  obtain ⟨a,hg,h⟩ := bind_eq_ok.mp h
  cases h
  exact evaluateGpu_access hg

/-- The evaluation of some requirements speaks for that of others. -/
def Covers (merged single : Option HostRequirements) : Prop :=
  ∀ capabilities evaluation, evaluateHostRequirements merged capabilities = .ok evaluation →
    ∃ own, evaluateHostRequirements single capabilities = .ok own ∧
      (own.gpuAccess = .requested → evaluation.gpuAccess = .requested)

theorem Covers.refl (requirements : Option HostRequirements) : Covers requirements requirements :=
  fun _ ev h => ⟨ev,h,id⟩

theorem Covers.trans {a b c : Option HostRequirements} (hab : Covers a b) (hbc : Covers b c) :
    Covers a c := by
  intro caps ev h
  obtain ⟨between,hb,hab⟩ := hab caps ev h
  obtain ⟨own,hc,hbc⟩ := hbc caps between hb
  exact ⟨own,hc,fun ho => hab (hbc ho)⟩

theorem covers_none (merged : Option HostRequirements) : Covers merged none :=
  fun _ _ _ => ⟨_,rfl,fun h => nomatch h⟩

theorem NumberMet.of_max {a b : Option ℕ} (h : NumberMet (maxNumber a b) available) :
    NumberMet a available ∧ NumberMet b available := by
  cases a <;> cases b <;> simp_all [NumberMet,Within,maxNumber]

theorem SizeMet.of_max {cur next merged : Option Text} {prop : Text}
    (hm : maxSize cur next source prop = .ok merged) (h : SizeMet merged available)
    : SizeMet cur available ∧ SizeMet next available := by
  cases next with
  | none =>
    cases hm
    simpa [SizeMet] using h
  | some next =>
    obtain ⟨nextBytes,hn,hm⟩ := bind_eq_ok.mp hm
    cases cur with
    | none =>
      cases hm
      simpa [SizeMet] using h
    | some cur =>
      obtain ⟨currentBytes,hc,hm⟩ := bind_eq_ok.mp hm
      cases hm
      split_ifs at h with hle <;> simp_all [SizeMet,Within] <;> grind

/-- One GPU requirement asks for all that another asks for. -/
def Stronger (a b : GpuRequirement) : Prop :=
  ∀ measured, (GpuMet measured a → GpuMet measured b) ∧
    (gpuIntent measured b = .requested → gpuIntent measured a = .requested)

theorem Stronger.refl (a : GpuRequirement) : Stronger a a := fun _ => ⟨id,id⟩

theorem stronger_of_rank {a b : GpuRequirement} (h : gpuRank b ≤ gpuRank a)
    (hb : ∀ cores memory, b ≠ .detailed cores memory) : Stronger a b := by
  intro measured
  cases b with
  | detailed cores memory => exact absurd rfl (hb cores memory)
  | notRequired => exact ⟨fun _ => trivial,fun h => nomatch h⟩
  | optional | required => cases a <;> simp_all [gpuRank,GpuMet,gpuIntent]

theorem stronger_mergeGpu {cur next merged : Option GpuRequirement}
    (h : mergeGpu cur next source = .ok merged) :
    Stronger (merged.getD .notRequired) (cur.getD .notRequired) ∧
      Stronger (merged.getD .notRequired) (next.getD .notRequired) := by
  have hn (a : GpuRequirement) : Stronger a .notRequired :=
    stronger_of_rank (Nat.zero_le _) fun _ _ h => nomatch h
  revert h
  fun_cases mergeGpu cur next source with
  | case1 cores memory cores' memory' =>
    intro h
    obtain ⟨size,hs,h⟩ := bind_eq_ok.mp h
    cases h
    constructor <;> refine fun measured => ⟨fun hm => ⟨hm.1,?_,?_⟩,fun _ => rfl⟩
    · exact (NumberMet.of_max hm.2.1).1
    · exact (SizeMet.of_max hs hm.2.2).1
    · exact (NumberMet.of_max hm.2.1).2
    · exact (SizeMet.of_max hs hm.2.2).2
  | case2 cur next hd =>
    intro h
    cases h
    split_ifs with hle
    · refine ⟨stronger_of_rank hle ?_,.refl _⟩
      rintro cores memory rfl
      cases next with
      | detailed cores' memory' => exact hd _ _ _ _ rfl rfl
      | _ => simp [gpuRank] at hle
    · refine ⟨.refl _,stronger_of_rank (not_le.mp hle).le ?_⟩
      rintro cores memory rfl
      cases cur <;> simp_all [gpuRank]
  | case3 _ hb =>
    intro h
    cases h
    cases cur <;> cases next <;> simp_all [Stronger.refl]

theorem covers_of_met {merged single : HostRequirements}
    (hm : ∀ caps, Met caps merged → Met caps single)
    (hg : Stronger (gpuOf merged) (gpuOf single)) : Covers (some merged) (some single) := by
  intro caps ev h
  obtain ⟨own,ho⟩ := passes_evaluateHostRequirements.mpr
    (hm caps (passes_evaluateHostRequirements.mp ⟨ev,h⟩))
  refine ⟨own,ho,?_⟩
  rw [evaluateHostRequirements_access ho,evaluateHostRequirements_access h]
  exact (hg caps.gpu).2

theorem covers_mergeRequirements {next : Option HostRequirements}
    (h : mergeRequirements cur next source = .ok merged) :
    Covers merged cur ∧ Covers merged next := by
  cases cur with
  | none =>
    cases next with
    | none =>
      cases h
      exact ⟨covers_none _,covers_none _⟩
    | some next =>
      obtain ⟨_,_,h⟩ := bind_eq_ok.mp h
      cases h
      exact ⟨covers_none _,.refl _⟩
  | some cur =>
    cases next with
    | none =>
      obtain ⟨_,_,h⟩ := bind_eq_ok.mp h
      cases h
      exact ⟨.refl _,covers_none _⟩
    | some next =>
      obtain ⟨memory,hme,h⟩ := bind_eq_ok.mp h
      obtain ⟨storage,hst,h⟩ := bind_eq_ok.mp h
      obtain ⟨gpu,hg,h⟩ := bind_eq_ok.mp h
      cases h
      have hs := stronger_mergeGpu hg
      constructor
      · refine covers_of_met (fun caps hm => ⟨?_,?_,?_,?_⟩) hs.1
        · exact (NumberMet.of_max hm.cpus).1
        · exact (SizeMet.of_max hme hm.memory).1
        · exact (SizeMet.of_max hst hm.storage).1
        · exact (hs.1 caps.gpu).1 hm.gpu
      · refine covers_of_met (fun caps hm => ⟨?_,?_,?_,?_⟩) hs.2
        · exact (NumberMet.of_max hm.cpus).2
        · exact (SizeMet.of_max hme hm.memory).2
        · exact (SizeMet.of_max hst hm.storage).2
        · exact (hs.2 caps.gpu).1 hm.gpu

def mergeHostRequirements (current : Option HostRequirements)
    (contributions : List ImageMetadata) : Except MetadataError (Option HostRequirements) :=
  contributions.foldlM (fun current contribution =>
    mergeRequirements current contribution.common.hostRequirements contribution.source) current

variable {cs : List ImageMetadata}

/-- The merge of all properties merges the host requirements by themselves. -/
theorem mergeHostRequirements_of_foldlM {s l : Merging}
    (h : cs.foldlM mergeContribution s = .ok l) :
    mergeHostRequirements s.settings.hostRequirements cs = .ok l.settings.hostRequirements := by
  induction cs generalizing s with
  | nil =>
    cases h
    rfl
  | cons c cs ih =>
    obtain ⟨next,hn,h⟩ := bind_eq_ok.mp h
    simp only [mergeContribution,mergeCommon,bind_eq_ok,pure_eq_ok] at hn
    obtain ⟨_,⟨_,_,merged,hm,rfl⟩,rfl⟩ := hn
    exact bind_eq_ok.mpr ⟨merged,hm,ih h⟩

theorem mergeHostRequirements_of_mergeImageMetadata {md : List ImageMetadata}
    {repo : RawProfile} {eff : EffectiveMetadata}
    (h : mergeImageMetadata md repo = .ok eff) :
    mergeHostRequirements none (contributions md repo) = .ok eff.hostRequirements := by
  obtain ⟨s,hs,rfl⟩ := mergeImageMetadata_eq_ok.mp h
  exact mergeHostRequirements_of_foldlM hs

theorem covers_mergeHostRequirements (h : mergeHostRequirements cur cs = .ok merged) :
    Covers merged cur ∧ ∀ c ∈ cs, Covers merged c.common.hostRequirements := by
  induction cs generalizing cur with
  | nil =>
    cases h
    exact ⟨.refl _,fun c hc => absurd hc not_mem_nil⟩
  | cons c cs ih =>
    obtain ⟨between,hb,h⟩ := bind_eq_ok.mp h
    obtain ⟨hm,hr⟩ := ih h
    obtain ⟨hcu,hc⟩ := covers_mergeRequirements hb
    exact ⟨hm.trans hcu,forall_mem_cons.mpr ⟨hm.trans hc,hr⟩⟩

/-- What is accepted for the merged requirements is accepted for every contribution, and a GPU
that some contribution would get is asked for. -/
theorem evaluate_single_of_merged {cs : List ImageMetadata} {merged : Option HostRequirements}
    {capabilities : HostCapabilities} {evaluation : HostRequirementEvaluation}
    (hmerged : mergeHostRequirements none cs = .ok merged)
    (haccepted : evaluateHostRequirements merged capabilities = .ok evaluation) :
    ∀ c ∈ cs, ∃ own, evaluateHostRequirements c.common.hostRequirements capabilities = .ok own ∧
        (own.gpuAccess = .requested → evaluation.gpuAccess = .requested) :=
  fun c hc => (covers_mergeHostRequirements hmerged).2 c hc capabilities evaluation haccepted

/-- An optional GPU beside a stated size, on a host that has the GPU and hides the size. -/
theorem evaluate_optional_of_merged :
    ∃ own, evaluateHostRequirements (some { gpu := some .optional })
        ⟨.reliable 4,.unknown .unmeasurable,.reliable 0,.reliable (some ⟨none,none⟩)⟩ =
          .ok own ∧ (own.gpuAccess = .requested → GpuAccessIntent.requested = .requested) :=
  @evaluate_single_of_merged
    [{ source := [], common := { hostRequirements := some { gpu := some .optional } } },
      { source := [], common := { hostRequirements := some { memory := some "8gb" } } }]
    _ ⟨.reliable 4,.unknown .unmeasurable,.reliable 0,.reliable (some ⟨none,none⟩)⟩
    ⟨_,.requested⟩ rfl rfl _ mem_cons_self

end Cdenv.HostEvaluation
