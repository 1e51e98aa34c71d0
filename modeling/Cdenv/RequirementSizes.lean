import Cdenv.HostEvaluation

/-!
# Sizes of merged requirements

The merge reads each memory and storage size of the contributions and keeps the largest. The
GPU memory of a contribution may be merged without being read.
-/
namespace Cdenv.RequirementSizes
open Fallible MetadataMerge HostEvaluation List

/-- A decimal number with an optional unit, and the bytes that it stands for. -/
def Denotes (text : Text) (bytes : ℕ) : Prop :=
  ∃ digits unit factor, text = digits++unit ∧ digits ≠ [] ∧ (∀ c ∈ digits, c.isDigit) ∧
    multiplier unit = some factor ∧ bytes = Nat.ofDigitChars 10 digits 0*factor ∧ bytes < 2^64

/-- The largest of some sizes; none of no sizes. -/
def Largest (texts : List Text) : Option Text → Prop
  | none => texts = []
  | some text => text ∈ texts ∧ ∃ n, Denotes text n ∧ ∀ other ∈ texts, ∃ m ≤ n, Denotes other m

def detailedMemory : Option GpuRequirement → Option Text
  | some (.detailed _ memory) => memory
  | _ => none

def gpuMemory (requirements : HostRequirements) : Option Text := detailedMemory requirements.gpu

def stated (field : HostRequirements → Option Text) (cs : List ImageMetadata) : List Text :=
  cs.filterMap fun c => c.common.hostRequirements.bind field

structure SizesMerged (cs : List ImageMetadata) (merged : Option HostRequirements) : Prop where
  memory : Largest (stated (·.memory) cs) (merged.bind (·.memory))
  storage : Largest (stated (·.storage) cs) (merged.bind (·.storage))
  gpu : ∀ text ∈ merged.bind gpuMemory, ∃ n, Denotes text n

theorem sizeBytes_eq_some {t : Text} {n : ℕ} : sizeBytes t = some n ↔ Denotes t n := by
  have hr : sizeBytes t = some n ↔ t.takeWhile Char.isDigit ≠ [] ∧
      Nat.ofDigitChars 10 (t.takeWhile Char.isDigit) 0 < 2^64 ∧
      ∃ factor, multiplier (t.dropWhile Char.isDigit) = some factor ∧
        Nat.ofDigitChars 10 (t.takeWhile Char.isDigit) 0*factor < 2^64 ∧
        Nat.ofDigitChars 10 (t.takeWhile Char.isDigit) 0*factor = n := by
    simp [sizeBytes,Option.bind_eq_some_iff,Option.guard_eq_some']
  rw [hr]
  constructor
  · rintro ⟨hne,-,factor,hf,hlt,rfl⟩
    exact ⟨_,_,factor,takeWhile_append_dropWhile.symm,hne,fun c hc => mem_takeWhile_imp hc,
      hf,rfl,hlt⟩
  · rintro ⟨digits,unit,factor,rfl,hne,hd,hf,rfl,hlt⟩
    have hu : unit.takeWhile Char.isDigit = [] ∧ unit.dropWhile Char.isDigit = unit ∧
        1 ≤ factor := by
      unfold multiplier at hf
      split_ifs at hf <;> cases hf <;> subst_vars <;> decide
    rw [takeWhile_append_of_pos hd,dropWhile_append_of_pos hd,hu.1,hu.2.1,append_nil]
    exact ⟨hne,(Nat.le_mul_of_pos_right _ hu.2.2).trans_lt hlt,factor,hf,hlt,rfl⟩

theorem Denotes.unique {t : Text} {m n : ℕ} (hm : Denotes t m) (hn : Denotes t n) : m = n := by
  rw [← sizeBytes_eq_some] at hm hn
  exact Option.some.inj (hm.symm.trans hn)

variable {current next merged : Option HostRequirements} {source : Text}

theorem Largest.step {texts : List Text} {current next merged : Option Text} {prop : Text}
    (h : Largest texts current) (hme : maxSize current next source prop = .ok merged) :
    Largest (texts++next.toList) merged := by
  cases next with
  | none =>
    cases hme
    simpa using h
  | some next =>
    obtain ⟨nextBytes,hne,hme⟩ := bind_eq_ok.mp hme
    rw [orFail_eq_ok,sizeBytes_eq_some] at hne
    cases current with
    | none =>
      cases hme
      rw [show texts = [] from h]
      exact ⟨mem_singleton_self _,nextBytes,hne,forall_mem_singleton.mpr ⟨_,le_rfl,hne⟩⟩
    | some current =>
      obtain ⟨currentBytes,hc,hme⟩ := bind_eq_ok.mp hme
      rw [orFail_eq_ok,sizeBytes_eq_some] at hc
      cases hme
      obtain ⟨hmm,n,hn,ho⟩ := h
      cases hn.unique hc
      simp only [Option.toList_some]
      split_ifs with hle
      · refine ⟨by simp,nextBytes,hne,forall_mem_append.mpr ⟨fun b hot => ?_,?_⟩⟩
        · obtain ⟨m,hm,hd⟩ := ho b hot
          exact ⟨m,hm.trans hle,hd⟩
        · exact forall_mem_singleton.mpr ⟨_,le_rfl,hne⟩
      · refine ⟨mem_append_left _ hmm,_,hc,forall_mem_append.mpr ⟨ho,?_⟩⟩
        exact forall_mem_singleton.mpr ⟨_,(not_le.mp hle).le,hne⟩

def Readable (size : Option Text) : Prop := ∀ text ∈ size, ∃ n, Denotes text n

theorem readable_maxSize {current next merged : Option Text} {prop : Text}
    (h : maxSize current next source prop = .ok merged) :
    Readable merged ↔ Readable current ∧ Readable next := by
  cases next with
  | none =>
    cases h
    simp [Readable]
  | some next =>
    obtain ⟨nextBytes,hn,h⟩ := bind_eq_ok.mp h
    rw [orFail_eq_ok,sizeBytes_eq_some] at hn
    cases current with
    | none =>
      cases h
      simp [Readable]
    | some current =>
      obtain ⟨currentBytes,hc,h⟩ := bind_eq_ok.mp h
      rw [orFail_eq_ok,sizeBytes_eq_some] at hc
      cases h
      have hr : (∃ n, Denotes next n) ∧ ∃ n, Denotes current n := ⟨⟨_,hn⟩,_,hc⟩
      split_ifs <;> simp [Readable,hr]

theorem readable_mergeGpu {current next merged : Option GpuRequirement}
    (h : mergeGpu current next source = .ok merged) :
    Readable (detailedMemory merged) ↔
      Readable (detailedMemory current) ∧ Readable (detailedMemory next) := by
  have hn : Readable none := nofun
  revert h
  fun_cases mergeGpu current next source with
  | case1 cores memory cores' memory' =>
    intro h
    obtain ⟨size,hs,h⟩ := bind_eq_ok.mp h
    cases h
    exact readable_maxSize hs
  | case2 current next hd =>
    intro h
    cases h
    cases current <;> cases next <;>
      first | exact absurd rfl (hd _ _ _ _ rfl) | simp [gpuRank,detailedMemory,hn]
  | case3 current next hb =>
    intro h
    cases h
    cases current <;> cases next <;> simp_all [detailedMemory]

theorem maxSize_none_left {next : Option Text} {prop : Text}
    (h : (next.all fun v => (sizeBytes v).isSome) = true) :
    maxSize none next source prop = .ok next := by
  cases next with
  | none => rfl
  | some next =>
    obtain ⟨n,hn⟩ := Option.isSome_iff_exists.mp h
    simp only [maxSize,hn]
    rfl

/-- Memory and storage go through the comparison, also where only one side states any
requirements. The memory of the GPU is passed on, read or not. -/
theorem mergeRequirements_sizes (h : mergeRequirements current next source = .ok merged) :
    (∃ prop, maxSize (current.bind (·.memory)) (next.bind (·.memory)) source prop =
      .ok (merged.bind (·.memory))) ∧
    (∃ prop, maxSize (current.bind (·.storage)) (next.bind (·.storage)) source prop =
      .ok (merged.bind (·.storage))) ∧
    (Readable (merged.bind gpuMemory) ↔
      Readable (current.bind gpuMemory) ∧ Readable (next.bind gpuMemory)) := by
  have hn : Readable none := nofun
  rcases current with _ | current <;> rcases next with _ | next
  · cases h
    exact ⟨⟨[],rfl⟩,⟨[],rfl⟩,by simp [hn]⟩
  · simp only [mergeRequirements,validateRequirementSizes,Option.none_or,bind_eq_ok,
      require_eq_ok,pure_eq_ok] at h
    obtain ⟨_,⟨_,hm,_,hs,_⟩,rfl⟩ := h
    exact ⟨⟨[],maxSize_none_left hm⟩,⟨[],maxSize_none_left hs⟩,by simp [hn]⟩
  · obtain ⟨_,_,h⟩ := bind_eq_ok.mp h
    cases h
    exact ⟨⟨[],rfl⟩,⟨[],rfl⟩,by simp [hn]⟩
  · obtain ⟨memory,hm,h⟩ := bind_eq_ok.mp h
    obtain ⟨storage,hs,h⟩ := bind_eq_ok.mp h
    obtain ⟨gpu,hg,h⟩ := bind_eq_ok.mp h
    cases h
    exact ⟨⟨_,hm⟩,⟨_,hs⟩,readable_mergeGpu hg⟩

theorem mergeHostRequirements_sizes {done cs : List ImageMetadata}
    (hme : Largest (stated (·.memory) done) (current.bind (·.memory)))
    (hso : Largest (stated (·.storage) done) (current.bind (·.storage)))
    (h : mergeHostRequirements current cs = .ok merged) :
    Largest (stated (·.memory) (done++cs)) (merged.bind (·.memory)) ∧
    Largest (stated (·.storage) (done++cs)) (merged.bind (·.storage)) ∧
    (Readable (merged.bind gpuMemory) ↔ Readable (current.bind gpuMemory) ∧
      ∀ c ∈ cs, Readable (c.common.hostRequirements.bind gpuMemory)) := by
  induction cs generalizing current done with
  | nil =>
    cases h
    simpa using ⟨hme,hso⟩
  | cons c cs ih =>
    obtain ⟨between,hb,h⟩ := bind_eq_ok.mp h
    obtain ⟨⟨_,hm⟩,⟨_,hs⟩,hg⟩ := mergeRequirements_sizes hb
    have hst : ∀ f, stated f (done++[c]) =
        stated f done++(c.common.hostRequirements.bind f).toList := by
      intro f
      cases hc : c.common.hostRequirements.bind f <;> simp [stated,hc]
    have := ih (hst _ ▸ hme.step hm) (hst _ ▸ hso.step hs) h
    rw [append_assoc,singleton_append,hg,and_assoc] at this
    simpa only [forall_mem_cons] using this

/-- On success the sizes are merged as they should be exactly if every GPU memory that was
contributed can be read. -/
theorem sizesMerged_iff {metadata : List ImageMetadata} {repository : RawProfile}
    {effective : EffectiveMetadata} (h : mergeImageMetadata metadata repository = .ok effective) :
    SizesMerged (contributions metadata repository) effective.hostRequirements ↔
      ∀ c ∈ contributions metadata repository,
        ∀ text ∈ c.common.hostRequirements.bind gpuMemory, ∃ n, Denotes text n := by
  have hn : ∀ f, Largest (stated f []) ((none : Option HostRequirements).bind f) := fun _ => rfl
  obtain ⟨hm,hst,hg⟩ := mergeHostRequirements_sizes (hn _) (hn _)
    (mergeHostRequirements_of_mergeImageMetadata h)
  constructor
  · exact fun hs => (hg.mp hs.gpu).2
  · exact fun ha => ⟨hm,hst,hg.mpr ⟨nofun,ha⟩⟩

/-- An image that asks for two processors. -/
def twoCpus : ImageMetadata :=
  { source := [], common := { hostRequirements := some { cpus := some 2 } } }

/-- An image that states every size. -/
def sized : ImageMetadata where
  source := []
  common := { hostRequirements := some {
    memory := some "2gb"
    storage := some "32gb"
    gpu := some (.detailed none (some "1gb")) } }

def repositoryWith (gpu : GpuRequirement) (memory : Option Text) : RawProfile where
  scenario := .image { image := "base" }
  common := { hostRequirements := some { gpu := some gpu, memory } }

/-- The larger memory comes second, the storage and both GPU memories are read. -/
theorem sizesMerged_sized :
    let repository := repositoryWith (.detailed none (some "512mb")) (some "4096mb")
    ∃ effective, mergeImageMetadata [sized] repository = .ok effective ∧
      SizesMerged (contributions [sized] repository) effective.hostRequirements := by
  intro repository
  obtain ⟨effective,h⟩ : ∃ effective, mergeImageMetadata [sized] repository = .ok effective :=
    ⟨_,rfl⟩
  refine ⟨effective,h,(sizesMerged_iff h).mpr ?_⟩
  refine forall_mem_cons.mpr ⟨?_,forall_mem_singleton.mpr ?_⟩ <;> rintro _ ⟨⟩
  · exact ⟨2^30,sizeBytes_eq_some.mp (by decide)⟩
  · exact ⟨2^29,sizeBytes_eq_some.mp (by decide)⟩

/-- Two to the 64 bytes do not fit, and nothing reads them. -/
theorem unread_gpu_memory :
    let repository := repositoryWith (.detailed none (some "16777216tb")) none
    ∃ effective, mergeImageMetadata [twoCpus] repository = .ok effective ∧
      ¬ SizesMerged (contributions [twoCpus] repository) effective.hostRequirements := by
  intro repository
  obtain ⟨effective,h⟩ : ∃ effective, mergeImageMetadata [twoCpus] repository = .ok effective :=
    ⟨_,rfl⟩
  refine ⟨effective,h,fun hs => ?_⟩
  have hm := (mergeHostRequirements_of_mergeImageMetadata h).symm
  obtain ⟨n,hn⟩ := hs.gpu "16777216tb" (by rw [Except.ok.inj (hm.trans rfl)]; rfl)
  rw [← sizeBytes_eq_some,show sizeBytes "16777216tb" = none by decide] at hn
  cases hn

end Cdenv.RequirementSizes
