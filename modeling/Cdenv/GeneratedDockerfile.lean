import Cdenv.FeatureScript
import Cdenv.JsonText

/-!
# The generated Dockerfile as it is read

The Dockerfile is written line by line and read by the Dockerfile grammar. It is read
as the intended instructions, with every option in its variable and every label in its
value, exactly when no text reaches out of its place: the base image does not continue
its line, no option value breaks one, options do not share a variable with different
values, and the label values are plain.
-/
namespace Cdenv.GeneratedDockerfile
open TextScan Fallible DockerfileGrammar LabelText ShellQuoting GeneratedImage FeatureScript List

def layerInstructions (feature : GeneratedFeature) (index : ℕ) : List Instruction :=
  [⟨"COPY",copyArgument index⟩,
    ⟨"RUN",featureScript index (assignmentsText feature.resolved.options)⟩]

def updateInstructions : Option GeneratedUidGidUpdate → List Instruction
  | none => []
  | some _ =>
    [⟨"COPY",agentArgument⟩,⟨"COPY",manifestArgument⟩,⟨"RUN",updateScript⟩]

section
variable (printable letter : Char → Bool) (encode : Json → Text)

def imageLabels (metadata : Json) (labels : OrderedMap Text Text) : List (Text × Text) :=
  (metadataLabel, encode metadata)::labels.entries

def labelInstruction (label : Text × Text) : Instruction :=
  ⟨"LABEL",labelArgument printable label.1 label.2⟩

def intended (baseImage : Text) (features : List GeneratedFeature) (metadata : Json)
    (labels : OrderedMap Text Text) (uidUpdate : Option GeneratedUidGidUpdate) :
    List Instruction :=
  ⟨"FROM",baseImage⟩::⟨"USER","root"⟩ ::
    (features.zipIdx.flatMap fun p => layerInstructions p.1 p.2) ++
    updateInstructions uidUpdate ++
    (imageLabels encode metadata labels).map (labelInstruction printable)

/-- The Dockerfile is read as intended: its instructions, the variables of every install
script and the value of every label, whatever the image's environment is. -/
structure DockerfileReads (baseImage : Text) (features : List GeneratedFeature) (metadata : Json)
    (labels : OrderedMap Text Text) (uidUpdate : Option GeneratedUidGidUpdate)
    (plan : GeneratedImagePlan) : Prop where
  instructions : instructions plan.dockerfile =
    intended printable encode baseImage features metadata labels uidUpdate
  installs : ∀ p ∈ features.zipIdx, InstallsWithOptions p.2 p.1.resolved.options
  labels : ∀ label ∈ imageLabels encode metadata labels, ∀ env,
    readLabel letter env (labelArgument printable label.1 label.2) = some label

/-- No text reaches out of its place. -/
structure DockerfilePlain (baseImage : Text) (features : List GeneratedFeature) (metadata : Json)
    (labels : OrderedMap Text Text) : Prop where
  base : baseImage.getLast? ≠ some '\\'
  values : ∀ f ∈ features, ∀ o ∈ f.resolved.options.entries, '\n' ∉ optionText o.2
  arguments : ∀ f ∈ features, OptionsAgree f.resolved.options ∧
    ∀ o ∈ f.resolved.options.entries, '\x00' ∉ optionText o.2
  labels : ∀ label ∈ imageLabels encode metadata labels, LabelPlain printable letter label.2

end

def written (l : List Instruction) : Text := l.flatMap fun i => i.line++['\n']

theorem written_append (l m : List Instruction) : written (l++m) = written l++written m :=
  flatMap_append

theorem line_eq_written (kw : String) (arg : Text) : line kw arg = written [⟨kw.toList,arg⟩] := by
  simp [line,written,Instruction.line]

theorem featureLayer_eq_ok {ft : GeneratedFeature} {i : ℕ} {ly : GeneratedImagePlan}
    (h : featureLayer ft i = .ok ly) :
    NamesValid ft.resolved.options ∧ ly.dockerfile = written (layerInstructions ft i) := by
  simp only [featureLayer,bind_eq_ok,require_eq_ok,pure_eq_ok] at h
  obtain ⟨⟨⟩,-,files,-,asg,ha,rfl⟩ := h
  obtain ⟨hn,rfl⟩ := featureAssignments_eq_ok ha
  refine ⟨hn,?_⟩
  rw [line_eq_written,line_eq_written,← written_append]
  rfl

theorem layers_dockerfile {l : List (GeneratedFeature × ℕ)} {layers : List GeneratedImagePlan}
    (h : List.Forall₂ (fun p ly => featureLayer p.1 p.2 = .ok ly) l layers) :
    (∀ p ∈ l, NamesValid p.1.resolved.options) ∧
      layers.flatMap (·.dockerfile) = written (l.flatMap fun p => layerInstructions p.1 p.2) := by
  induction h with
  | nil => exact ⟨forall_mem_nil _,rfl⟩
  | @cons p ly l layers hp hr ih =>
    obtain ⟨hn,ht⟩ := featureLayer_eq_ok hp
    refine ⟨forall_mem_cons.mpr ⟨hn,ih.1⟩,?_⟩
    rw [flatMap_cons,flatMap_cons,written_append,ht,ih.2]

theorem updateLayer_dockerfile (upd : Option GeneratedUidGidUpdate) :
    (updateLayer upd).dockerfile = written (updateInstructions upd) := by
  cases upd with
  | none => rfl
  | some upd =>
    show line "COPY" agentArgument++line "COPY" manifestArgument++line "RUN" updateScript = _
    rw [line_eq_written,line_eq_written,line_eq_written,← written_append,← written_append]
    rfl

section
variable {printable letter : Char → Bool} {encode : Json → Text} {baseImage : Text}
  {features : List GeneratedFeature} {metadata : Json} {labels : OrderedMap Text Text}
  {uidUpdate : Option GeneratedUidGidUpdate} {plan : GeneratedImagePlan}

theorem labelLines_written {l : List (Text × Text)} {lines : List Text}
    (h : List.Forall₂ (fun lb line => labelLine printable lb = .ok line) l lines) :
    (∀ lb ∈ l, validLabelKey lb.1 = true) ∧
      lines.flatten = written (l.map (labelInstruction printable)) := by
  induction h with
  | nil => exact ⟨forall_mem_nil _,rfl⟩
  | @cons lb line l lines hl hr ih =>
    simp only [labelLine,bind_eq_ok,require_eq_ok,pure_eq_ok,Bool.and_eq_true] at hl
    obtain ⟨⟨⟩,⟨-,hk⟩,rfl⟩ := hl
    refine ⟨forall_mem_cons.mpr ⟨hk,ih.1⟩,?_⟩
    rw [flatten_cons,ih.2,line_eq_written,← written_append]
    rfl

/-- What acceptance checks, and the text it produces. -/
theorem newWithUidUpdate_eq_ok
    (h : newWithUidUpdate printable encode baseImage features metadata labels uidUpdate =
      .ok plan) :
    validBaseImage baseImage = true ∧ (∀ p ∈ features.zipIdx, NamesValid p.1.resolved.options) ∧
      (∀ lb ∈ labels.entries, validLabelKey lb.1 = true) ∧
      plan.dockerfile =
        written (intended printable encode baseImage features metadata labels uidUpdate) := by
  simp only [newWithUidUpdate,bind_eq_ok,require_eq_ok,pure_eq_ok] at h
  obtain ⟨⟨⟩,hb,layers,hl,lines,hli,rfl⟩ := h
  obtain ⟨hn,hl⟩ := layers_dockerfile (mapM_eq_ok.mp hl)
  obtain ⟨hk,hli⟩ := labelLines_written (mapM_eq_ok.mp hli)
  refine ⟨hb,hn,hk,?_⟩
  simp only [hl,hli,updateLayer_dockerfile,line_eq_written,← written_append]
  congr 1
  simp [intended,imageLabels,labelInstruction]

variable {c : Char}

theorem validBaseImage_spec (h : validBaseImage baseImage = true) (hc : c ∈ baseImage) :
    isWhitespace c = false ∧ isControl c = false := by
  simp only [validBaseImage,Bool.not_eq_true',Bool.or_eq_false_iff,any_eq_false] at h
  exact ⟨by simpa using h.1.2 c hc,by simpa using h.2 c hc⟩

theorem complete_from (h : validBaseImage baseImage = true) (he : baseImage.getLast? ≠ some '\\') :
    Complete ⟨"FROM",baseImage⟩ := by
  have hk : "FROM".toList ∈ keywords := by decide
  refine .of_ends hk (fun hc => absurd (validBaseImage_spec h hc).1 (by decide)) ?_ ?_
  · exact fun c hc => (validBaseImage_spec h (mem_of_mem_head? hc)).1
  · intro c hc
    refine ⟨(validBaseImage_spec h (mem_of_getLast? hc)).1,?_⟩
    rintro rfl
    exact he hc

theorem complete_copy (index : ℕ) : Complete ⟨"COPY",copyArgument index⟩ := by
  have hk : "COPY".toList ∈ keywords := by decide
  have hh : (copyArgument index).head? = some '-' := rfl
  have hl : (copyArgument index).getLast? = some '/' := getLast?_concat
  have hco : '\n' ∉ contextDirectory index := not_mem_append (by decide) (decimal_ne rfl)
  have hw : '\n' ∉ copyArgument index :=
    not_mem_append (not_mem_append (not_mem_append (not_mem_append (by decide) hco) (by decide))
        (not_mem_installDirectory (by decide) index)) (by decide)
  refine .of_ends hk hw ?_ ?_
  · intro c hc
    cases hh.symm.trans hc
    rfl
  · intro c hc
    cases hl.symm.trans hc
    exact ⟨rfl,by decide⟩

theorem isNameChar_plain (h : TextScan.isNameChar c = true) :
    isWhitespace c = false ∧ c ≠ '\\' := by
  refine ⟨?_,fun hc => absurd (hc ▸ h) (by decide)⟩
  have hr : 48 ≤ c.toNat ∧ c.toNat ≤ 122 := by
    unfold TextScan.isNameChar Char.isAlphanum Char.isAlpha Char.isUpper Char.isLower at h
    simp only [Char.isDigit,Bool.or_eq_true,beq_iff_eq,Bool.and_eq_true,decide_eq_true_eq,
      ge_iff_le,UInt32.le_iff_toNat_le] at h
    rcases h with rfl | (h | h) | h
    · decide
    all_goals exact ⟨Nat.le_trans (by decide) h.1,Nat.le_trans h.2 (by decide)⟩
  simp only [isWhitespace,Bool.or_eq_false_iff,Bool.and_eq_false_iff,decide_eq_false_iff_not,
    beq_eq_false_iff_ne]
  omega

theorem complete_run {i : ℕ} {asg : Text} (h : '\n' ∉ asg) :
    Complete ⟨"RUN",featureScript i asg⟩ := by
  have hk : "RUN".toList ∈ keywords := by decide
  have hh : (featureScript i asg).head? = some 'c' := rfl
  refine .of_ends hk (fun hc => h ((mem_featureScript (by decide)).mp hc)) ?_ ?_
  · intro c hc
    cases hh.symm.trans hc
    rfl
  · exact fun c hc => isNameChar_plain (getLast?_featureScript hc)

def LabelKey (key : Text) : Prop :=
  key ≠ [] ∧ ∀ c ∈ key, TextScan.isNameChar c = true ∨ c = '.' ∨ c = '-'

theorem labelKey_of_valid {key : Text} (h : validLabelKey key = true) : LabelKey key := by
  simp only [validLabelKey,Bool.and_eq_true,Bool.not_eq_true',all_eq_true,
    Bool.or_eq_true,beq_iff_eq] at h
  refine ⟨by simpa using h.1,fun c hc => ?_⟩
  simp only [TextScan.isNameChar,Bool.or_eq_true,beq_iff_eq]
  have := h.2 c hc
  tauto

theorem LabelKey.plain {key : Text} (h : LabelKey key) (hc : c ∈ key) :
    isWhitespace c = false ∧ c ≠ '=' := by
  rcases h.2 c hc with hn | rfl | rfl
  · exact ⟨(isNameChar_plain hn).1,fun he => absurd (he ▸ hn) (by decide)⟩
  all_goals exact ⟨rfl,by decide⟩

variable {lb : Text × Text}

theorem complete_label (h : LabelKey lb.1) : Complete (labelInstruction printable lb) := by
  have hke : "LABEL".toList ∈ keywords := by decide
  have hl : (labelArgument printable lb.1 lb.2).getLast? = some '"' := by
    have hs : labelArgument printable lb.1 lb.2 =
        (lb.1++ '=':: '"'::lb.2.flatMap (escapeDebug printable))++['"'] := by
      simp [labelArgument,debugQuote]
    rw [hs,getLast?_concat]
  refine .of_ends hke ?_ ?_ ?_
  · have hk : '\n' ∉ lb.1 := fun hc => absurd (h.plain hc).1 (by decide)
    refine not_mem_append hk fun hc => ?_
    rcases mem_cons.mp hc with hc | hc
    · exact absurd hc (by decide)
    · exact newline_not_mem_debugQuote lb.2 hc
  · intro c hc
    rw [labelArgument,head?_append_of_ne_nil _ h.1] at hc
    exact (h.plain (mem_of_mem_head? hc)).1
  · intro c hc
    cases hl.symm.trans hc
    exact ⟨rfl,by decide⟩

theorem complete_update {i : Instruction} (h : i ∈ updateInstructions uidUpdate) : Complete i := by
  have ha : ∀ i ∈ updateInstructions (some ⟨[],[]⟩), i.keyword ∈ keywords ∧
      '\n' ∉ i.argument ∧ i.argument.getLast? ≠ some '\\' ∧ trim i.argument = i.argument := by
    decide +kernel
  cases uidUpdate with
  | none => cases h
  | some upd =>
    obtain ⟨hk,hw,he,ht⟩ := ha i h
    exact ⟨hk,hw,he,ht⟩

theorem complete_user : Complete ⟨"USER","root"⟩ := ⟨by decide,by decide,by decide,by decide⟩

theorem labelKey_imageLabels (h : ∀ lb ∈ labels.entries, validLabelKey lb.1 = true)
    (hl : lb ∈ imageLabels encode metadata labels) : LabelKey lb.1 := by
  rcases mem_cons.mp hl with rfl | hl
  · have hm : validLabelKey metadataLabel = true := by decide
    exact labelKey_of_valid hm
  · exact labelKey_of_valid (h lb hl)

theorem complete_intended (hb : validBaseImage baseImage = true)
    (hn : ∀ p ∈ features.zipIdx, NamesValid p.1.resolved.options)
    (hk : ∀ lb ∈ labels.entries, validLabelKey lb.1 = true)
    (he : baseImage.getLast? ≠ some '\\')
    (hva : ∀ f ∈ features, ∀ o ∈ f.resolved.options.entries, '\n' ∉ optionText o.2) :
    ∀ i ∈ intended printable encode baseImage features metadata labels uidUpdate, Complete i := by
  intro i hi
  simp only [intended,mem_cons,mem_append,cons_append,mem_flatMap,mem_map] at hi
  rcases hi with rfl | rfl | (⟨p,hp,hi⟩ | hi) | ⟨lb,hl,rfl⟩
  · exact complete_from hb he
  · exact complete_user
  · rcases mem_cons.mp hi with rfl | hi
    · exact complete_copy p.2
    · rw [mem_singleton.mp hi]
      refine complete_run fun hc => ?_
      obtain ⟨o,ho,hv⟩ := (mem_assignmentsText (by decide) (hn p hp)).mp hc
      exact hva p.1 (fst_mem_of_mem_zipIdx hp) o ho hv
  · exact complete_update hi
  · exact complete_label (labelKey_imageLabels hk hl)

/-- A base image that ends in a backslash takes the next line into its own. -/
theorem instructions_base_continued (hb : validBaseImage baseImage = true)
    (he : baseImage.getLast? = some '\\') (more : List Instruction) :
    ∃ rest, instructions (written (⟨"FROM",baseImage⟩::⟨"USER","root"⟩::more)) =
      ⟨"FROM",baseImage.dropLast++"USER root"⟩::rest := by
  have hne : baseImage ≠ [] := by
    rintro rfl
    cases he
  have hs : ∀ c ∈ baseImage, isWhitespace c = false := fun c hc => (validBaseImage_spec hb hc).1
  have hf : "FROM".toList ∈ keywords := by decide
  have hw : '\n' ∉ "FROM"++ ' '::baseImage := by
    refine not_mem_append (by decide) fun hc => ?_
    rcases mem_cons.mp hc with hc | hc
    · exact absurd hc (by decide)
    · exact absurd (hs _ hc) (by decide)
  have hl : ("FROM"++ ' '::baseImage).getLast? = some '\\' := by
    rw [getLast?_append_of_ne_nil _ (cons_ne_nil _ _)]
    obtain ⟨c,s,rfl⟩ := exists_cons_of_ne_nil hne
    rw [getLast?_cons_cons,he]
  have hd : ("FROM"++ ' '::baseImage).dropLast++"USER root" =
      "FROM"++ ' '::(baseImage.dropLast++"USER root") := by
    rw [dropLast_append_of_ne_nil (cons_ne_nil _ _),dropLast_cons_of_ne_nil hne,
      append_assoc,cons_append]
  have htr : trim (baseImage.dropLast++"USER root") = baseImage.dropLast++"USER root" := by
    refine trim_eq_self (fun c hc => ?_) (fun c hc => ?_)
    · cases hca : baseImage.dropLast with
      | nil =>
        rw [hca] at hc
        cases hc
        rfl
      | cons d s =>
        rw [hca] at hc
        cases hc
        exact hs _ (mem_of_mem_dropLast (hca ▸ mem_cons_self))
    · rw [getLast?_append_of_ne_nil _ (by decide)] at hc
      cases hc
      rfl
  have hfr : ∀ c ∈ "FROM".toList, isWhitespace c = false := all_iff_forall_prop.mp (by decide)
  obtain ⟨rest,hr⟩ := instructions_continued (written more) hw
    (by decide : '\n' ∉ "USER root".toList) (isSkipped_line hf _) (by decide) hl (by decide)
  refine ⟨rest,?_⟩
  rw [hd,readInstruction_line (by decide) hfr htr] at hr
  have ht : written (⟨"FROM",baseImage⟩::⟨"USER","root"⟩::more) =
      ("FROM"++ ' '::baseImage)++ '\n'::("USER root"++ '\n'::written more) := by
    show (("FROM"++ ' '::baseImage)++['\n'])++(("USER root"++['\n'])++written more) = _
    rw [append_assoc,append_assoc]
    rfl
  rw [ht,hr]
  rfl

/-- The Dockerfile is read as intended exactly when no text reaches out of its place. -/
theorem dockerfile_reads_iff
    (h : newWithUidUpdate printable encode baseImage features metadata labels uidUpdate =
      .ok plan) :
    DockerfileReads printable letter encode baseImage features metadata labels uidUpdate plan ↔
      DockerfilePlain printable letter encode baseImage features metadata labels := by
  obtain ⟨hb,hn,hk,ht⟩ := newWithUidUpdate_eq_ok h
  have hla : (∀ lb ∈ imageLabels encode metadata labels, ∀ env,
      readLabel letter env (labelArgument printable lb.1 lb.2) = some lb) ↔
        ∀ lb ∈ imageLabels encode metadata labels, LabelPlain printable letter lb.2 := by
    refine forall₂_congr fun lb hl => ?_
    have hke : '=' ∉ lb.1 := fun hc => ((labelKey_imageLabels hk hl).plain hc).2 rfl
    exact readLabel_debugQuote_iff hke
  have hi : (∀ p ∈ features.zipIdx, InstallsWithOptions p.2 p.1.resolved.options) ↔
      ∀ f ∈ features, OptionsAgree f.resolved.options ∧
        ∀ o ∈ f.resolved.options.entries, '\x00' ∉ optionText o.2 := by
    have ha := forall₂_congr fun p (hp : p ∈ features.zipIdx) =>
      installsWithOptions_iff p.2 (hn p hp)
    have hfe := forall_mem_map (f := Prod.fst) (l := features.zipIdx)
      (P := fun f => OptionsAgree f.resolved.options ∧
        ∀ o ∈ f.resolved.options.entries, '\x00' ∉ optionText o.2)
    rw [zipIdx_map_fst] at hfe
    exact ha.trans hfe.symm
  constructor
  · intro hr
    have hre := ht ▸ hr.instructions
    refine ⟨fun he => ?_,fun f hf o ho hv => ?_,hi.mp hr.installs,hla.mp hr.labels⟩
    · obtain ⟨xs,hrs⟩ := instructions_base_continued hb he
        ((features.zipIdx.flatMap fun p => layerInstructions p.1 p.2) ++
          updateInstructions uidUpdate ++
          (imageLabels encode metadata labels).map (labelInstruction printable))
      have hh := head_eq_of_cons_eq (hrs.symm.trans hre)
      have har : baseImage.dropLast++"USER root" = baseImage := congrArg Instruction.argument hh
      have hs : ' ' ∈ baseImage.dropLast++"USER root" := mem_append_right _ (by decide)
      rw [har] at hs
      exact absurd (validBaseImage_spec hb hs).1 (by decide)
    · obtain ⟨p,hp,rfl⟩ := mem_map.mp ((zipIdx_map_fst 0 features).symm ▸ hf)
      have hru : (⟨"RUN",featureScript p.2 (assignmentsText p.1.resolved.options)⟩ :
          Instruction) ∈ intended printable encode baseImage features metadata labels uidUpdate :=
        mem_append_left _ (mem_append_left _ (mem_cons_of_mem _ (mem_cons_of_mem _ (mem_flatMap.mpr
            ⟨p,hp,mem_cons_of_mem _ mem_cons_self⟩))))
      rw [← hre] at hru
      have hne := (mem_assignmentsText (by decide) (hn p hp)).mpr ⟨o,ho,hv⟩
      exact newline_not_mem_argument hru ((mem_featureScript (by decide)).mpr hne)
  · intro hpl
    refine ⟨?_,hi.mpr hpl.arguments,hla.mpr hpl.labels⟩
    rw [ht]
    exact instructions_of_complete (complete_intended hb hn hk hpl.base hpl.values)

end

def asciiOnly : Char → Bool := fun _ => false

def sampleMetadata (greeting : String) : FeatureMetadata where
  id := "hello"
  version := "1.0.0"
  options := .ofList [("greeting", .string greeting.toList none)]

def sampleFeature (greeting : String) : GeneratedFeature where
  resolved :=
    { reference := .localPath "./hello"
      identity := .localPath "./hello"
      metadata := sampleMetadata greeting
      options := .ofList [("greeting", .string greeting.toList)] }
  files := [⟨"install.sh",[]⟩]

def sampleDocument : Json := .object [("id", .string "hello")]

def sampleLabels : OrderedMap Text Text := .ofList [("cdenv.workspace", "main")]

def sampleImage (greeting : String) : Except GeneratedImageError GeneratedImagePlan :=
  newWithUidUpdate asciiOnly JsonText.render "debian:12" [sampleFeature greeting]
    sampleDocument sampleLabels none

theorem dockerfile_reads_sample : (validateOptions (sampleMetadata "it's $5") .empty []).toOption =
        some (sampleFeature "it's $5").resolved.options ∧
      ∃ plan, sampleImage "it's $5" = .ok plan ∧
        DockerfileReads asciiOnly asciiOnly JsonText.render "debian:12"
          [sampleFeature "it's $5"] sampleDocument sampleLabels none plan := by
  refine ⟨by decide +kernel,?_⟩
  refine exists_ok_and (P := fun _ => True) (by decide +kernel) fun plan hp _ =>
    (dockerfile_reads_iff hp).mpr ⟨by decide,?_,?_,by decide +kernel⟩
  all_goals
    intro f hf
    rw [mem_singleton.mp hf]
    decide +kernel

/-- The second line of an option value is an instruction of its own. -/
theorem dockerfile_broken_line :
    (validateOptions (sampleMetadata "hi\nUSER nobody") .empty []).toOption =
        some (sampleFeature "hi\nUSER nobody").resolved.options ∧
      ∃ plan, sampleImage "hi\nUSER nobody" = .ok plan ∧
        ¬ DockerfileReads asciiOnly asciiOnly JsonText.render "debian:12"
          [sampleFeature "hi\nUSER nobody"] sampleDocument sampleLabels none plan := by
  refine ⟨by decide +kernel,?_⟩
  exact exists_ok_and (P := fun plan => instructions plan.dockerfile ≠
      intended asciiOnly JsonText.render "debian:12" [sampleFeature "hi\nUSER nobody"]
        sampleDocument sampleLabels none) (by decide +kernel) fun _ _ hr h => hr h.instructions

end Cdenv.GeneratedDockerfile
