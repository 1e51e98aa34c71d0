import Cdenv.GeneratedImage

/-!
# What a Feature's run layer does

The script of a run layer is lexed, parsed and run from its parts. It starts the install
script in the Feature's directory, with the options as variables; where two options
share a variable the later one decides.
-/
namespace Cdenv.FeatureScript
open TextScan Fallible Shell ShellQuoting GeneratedImage
open List hiding lex

def optionPairs (options : FeatureOptions) : List (Text × Text) :=
  options.entries.map fun o => (toAsciiUppercase o.1, optionText o.2)

def assignmentsText (options : FeatureOptions) : Text :=
  options.entries.flatMap fun o => assignmentText o.1 o.2

def NamesValid (options : FeatureOptions) : Prop :=
  ∀ o ∈ options.entries, validEnvironmentName (toAsciiUppercase o.1) = true

/-- The script starts the install script first, in its directory, and every option is
the value of its variable there. -/
def InstallsWithOptions (index : ℕ) (options : FeatureOptions) : Prop :=
  ∀ world shell env directory, ∃ s p rest,
    runScript world shell env directory (featureScript index (assignmentsText options)) = some s ∧
      s.started = p::rest ∧ p.argv = ["/bin/sh".toList,"./install.sh".toList] ∧
      p.directory = installDirectory index ∧
      ∀ o ∈ options.entries, p.environment (toAsciiUppercase o.1) = some (optionText o.2)

/-- Options whose names differ in case only have the same value. -/
def OptionsAgree (options : FeatureOptions) : Prop :=
  ∀ o ∈ options.entries, ∀ o' ∈ options.entries,
    toAsciiUppercase o.1 = toAsciiUppercase o'.1 → optionText o.2 = optionText o'.2

instance (options : FeatureOptions) : Decidable (OptionsAgree options) := by
  unfold OptionsAgree
  infer_instance

variable {options : FeatureOptions}

theorem featureAssignments_eq_ok {t : Text} (h : featureAssignments options = .ok t) :
    NamesValid options ∧ t = assignmentsText options := by
  have hf : ∀ (l : List (Text × FeatureValue)) (start : Text), l.foldlM (fun assignments opt => do
        require (validEnvironmentName (toAsciiUppercase opt.1))
          (GeneratedImageError.unsafeDockerfileInput "Feature option name")
        return assignments++assignmentText opt.1 opt.2) start = .ok t →
      (∀ o ∈ l, validEnvironmentName (toAsciiUppercase o.1) = true) ∧
        t = start++l.flatMap fun o => assignmentText o.1 o.2 := by
    intro l
    induction l with
    | nil =>
      intro start hs
      rw [← pure_eq_ok.mp hs]
      exact ⟨forall_mem_nil _,(append_nil start).symm⟩
    | cons o l ih =>
      intro start hs
      rw [foldlM_cons,bind_eq_ok] at hs
      obtain ⟨next,hn,hr⟩ := hs
      simp only [bind_eq_ok,require_eq_ok,pure_eq_ok] at hn
      obtain ⟨⟨⟩,hna,rfl⟩ := hn
      obtain ⟨hnm,ht⟩ := ih _ hr
      refine ⟨forall_mem_cons.mpr ⟨hna,hnm⟩,?_⟩
      rw [ht,append_assoc,flatMap_cons]
  exact hf options.entries [] h

def valueWord : FeatureValue → Word
  | .boolean value => (optionText (.boolean value)).map .plain
  | .string value => quotedPieces [] value

def optionWord (name : Text) (value : FeatureValue) : Word :=
  (toAsciiUppercase name).map .plain ++ .plain '='::valueWord value

theorem lexes_assignment {n : Text} (value : FeatureValue)
    (h : isName (toAsciiUppercase n) = true) :
    Lexes .between (assignmentText n value) [.word (optionWord n value)] .between := by
  have hn : Lexes .between (toAsciiUppercase n) [] (.word ((toAsciiUppercase n).map .plain)) := by
    cases hc : toAsciiUppercase n with
    | nil => rw [hc] at h; cases h
    | cons c xs =>
      rw [hc] at h
      have hp : ∀ d ∈ c::xs, isPlain d = true :=
        fun d hd => isPlain_of_isNameChar (isNameChar_of_mem h hd)
      refine lexes_plain_start hp ?_
      rintro rfl
      exact absurd (isNameChar_of_mem h mem_cons_self) (by decide)
  have he : Lexes (.word ((toAsciiUppercase n).map .plain)) ['='] []
      (.word ((toAsciiUppercase n).map .plain++[.plain '='])) := rfl
  have hv : Lexes (.word ((toAsciiUppercase n).map .plain++[.plain '=']))
      (renderOption value) [] (.word (optionWord n value)) := by
    have hs : optionWord n value = (toAsciiUppercase n).map .plain++[.plain '=']++valueWord value :=
      append_cons _ _ _
    rw [hs]
    cases value with
    | boolean b =>
      have hp : ∀ c ∈ optionText (.boolean b), isPlain c = true :=
        all_eq_true.mp (by cases b <;> rfl)
      exact lexes_plain hp _
    | string value => exact lexes_shellQuote _ value
  have hsp : Lexes (.word (optionWord n value)) [' '] [.word (optionWord n value)] .between := rfl
  have ha := hn.append (he.append (hv.append hsp))
  simpa [assignmentText] using ha

theorem wordText_valueWord (s : State) (v : FeatureValue) :
    wordText s (valueWord v) = some (optionText v) := by
  cases v with
  | boolean b => exact wordText_plain s _
  | string v => exact wordText_quotedPieces s [] v

theorem lexes_assignments {l : List (Text × FeatureValue)}
    (h : ∀ o ∈ l, isName (toAsciiUppercase o.1) = true) :
    Lexes .between (l.flatMap fun o => assignmentText o.1 o.2)
      ((l.map fun o => optionWord o.1 o.2).map .word) .between := by
  induction l with
  | nil => rfl
  | cons o l ih =>
    have hh := lexes_assignment o.2 (h o mem_cons_self)
    exact hh.append (ih fun o' ho' => h o' (mem_cons_of_mem _ ho'))

theorem lexes_installDirectory (ix : ℕ) :
    Lexes .between (installDirectory ix) [] (.word (plainWord (installDirectory ix))) := by
  refine lexes_plain_start (c := '/') (s := "tmp/cdenv-feature-"++decimal ix) ?_ (by decide)
  intro c hc
  rcases mem_append.mp (show c ∈ "/tmp/cdenv-feature-"++decimal ix from hc) with
    hc | hc
  · have hf : ∀ d ∈ "/tmp/cdenv-feature-".toList, isPlain d = true := all_iff_forall_prop.mp (by decide)
    exact hf c hc
  · exact isPlain_of_isNameChar (isNameChar_of_mem_decimal hc)

def scriptTokens (index : ℕ) (options : FeatureOptions) : List Token :=
  [.word (plainWord "cd"),.word (plainWord (installDirectory index)),.op .andIf] ++
    ((options.entries.map fun o => optionWord o.1 o.2).map .word ++
      [.word (plainWord "/bin/sh"),.word (plainWord "./install.sh"),.op .andIf,
        .word (plainWord "cd"),.word (plainWord "/"),.op .andIf,
        .word (plainWord "rm"),.word (plainWord "-rf"),
        .word (plainWord (installDirectory index))])

theorem featureScript_eq (ix : ℕ) (assignments : Text) :
    featureScript ix assignments = "cd "++(installDirectory ix++(" && " ++
      (assignments++("/bin/sh ./install.sh && cd / && rm -rf "++installDirectory ix)))) := by
  delta featureScript
  rw [append_assoc,append_assoc,append_assoc,append_assoc]

theorem decimal_ne {c : Char} {n : ℕ} (hc : isNameChar c = false) : c ∉ decimal n := by
  intro h
  rw [isNameChar_of_mem_decimal h] at hc
  cases hc

/-- The characters that end a line of a Dockerfile or a process argument. -/
def breaks : Text := ['\n','\x00']

variable {c : Char}

theorem not_mem_installDirectory (hc : c ∈ breaks) (index : ℕ) : c ∉ installDirectory index := by
  rcases mem_pair.mp hc with rfl | rfl <;> exact not_mem_append (by decide) (decimal_ne (by decide))

variable {i : ℕ} {assignments : Text}

theorem mem_featureScript (hc : c ∈ breaks) :
    c ∈ featureScript i assignments ↔ c ∈ assignments := by
  have hd := not_mem_installDirectory hc i
  obtain ⟨h₁,h₂,h₃⟩ : c ∉ "cd ".toList ∧ c ∉ " && ".toList ∧
      c ∉ "/bin/sh ./install.sh && cd / && rm -rf ".toList := by
    rcases mem_pair.mp hc with rfl | rfl <;> decide
  rw [featureScript_eq]
  simp only [mem_append,hd,h₁,h₂,h₃,false_or,or_false]

/-- Line breaks and NULs of a script are those of its option values. -/
theorem mem_assignmentsText (hc : c ∈ breaks) (h : NamesValid options) :
    c ∈ assignmentsText options ↔ ∃ o ∈ options.entries, c ∈ optionText o.2 := by
  have ha : ∀ c ∈ breaks, c ≠ '\'' ∧ c ≠ '"' ∧ c ≠ '=' ∧ c ≠ ' ' ∧ isNameChar c = false :=
    all_iff_forall_prop.mp (by decide)
  obtain ⟨hq,hdq,he,hs,hna⟩ := ha c hc
  have hr : ∀ value, c ∈ renderOption value ↔ c ∈ optionText value := by
    intro value
    cases value with
    | boolean b => rfl
    | string value => exact mem_shellQuote hq hdq
  simp only [assignmentsText,mem_flatMap]
  refine exists_congr fun o => and_congr_right fun ho => ?_
  have hn : c ∉ toAsciiUppercase o.1 :=
    fun hm => Bool.false_ne_true (hna.symm.trans (isNameChar_of_mem (h o ho) hm))
  simp only [assignmentText,mem_append,mem_cons,hn,he,hs,hr,not_mem_nil,false_or,or_false]

theorem getLast?_featureScript {c : Char} (h : (featureScript i assignments).getLast? = some c)
    : isNameChar c = true := by
  have hd : decimal i ≠ [] := Nat.toDigits_ne_nil
  have hdi : (installDirectory i).getLast? = (decimal i).getLast? := getLast?_append_of_ne_nil _ hd
  have hne : installDirectory i ≠ [] := append_ne_nil_of_right_ne_nil _ hd
  have hs : (featureScript i assignments).getLast? = (installDirectory i).getLast? :=
    getLast?_append_of_ne_nil _ hne
  rw [hs,hdi] at h
  exact isNameChar_of_mem_decimal (mem_of_getLast? h)

theorem lex_featureScript (h : NamesValid options) :
    lex (featureScript i (assignmentsText options)) = some (scriptTokens i options) := by
  have hcd : Lexes .between "cd " [.word (plainWord "cd")] .between := rfl
  have hand : Lexes (.word (plainWord (installDirectory i))) " && "
      [.word (plainWord (installDirectory i)),.op .andIf] .between := rfl
  have hi : Lexes .between "/bin/sh ./install.sh && cd / && rm -rf "
      [.word (plainWord "/bin/sh"),.word (plainWord "./install.sh"),.op .andIf,
        .word (plainWord "cd"),.word (plainWord "/"),.op .andIf,
        .word (plainWord "rm"),.word (plainWord "-rf")] .between := rfl
  have hd := lexes_installDirectory i
  have ha := hcd.append (hd.append (hand.append ((lexes_assignments h).append (hi.append hd))))
  rw [featureScript_eq]
  refine lex_of_lexes ha ?_
  simp only [Lexer.finish,scriptTokens,append_assoc,cons_append,nil_append]

def installCommand (index : ℕ) (assignments : List (Text × Word)) : Command :=
  .andThen
    (.andThen
      (.andThen
        (.simple [] [plainWord "cd",plainWord (installDirectory index)])
        (.simple assignments [plainWord "/bin/sh",plainWord "./install.sh"]))
      (.simple [] [plainWord "cd",plainWord "/"]))
    (.simple [] [plainWord "rm",plainWord "-rf",plainWord (installDirectory index)])

def optionAssignments (options : FeatureOptions) : List (Text × Word) :=
  options.entries.map fun o => (toAsciiUppercase o.1, valueWord o.2)

theorem parse_scriptTokens (h : NamesValid options) : parse (scriptTokens i options) =
      some (installCommand i (optionAssignments options)) := by
  have ha : List.Forall₂ (fun w a => assignment w = some a)
      (options.entries.map fun o => optionWord o.1 o.2) (optionAssignments options) := by
    rw [optionAssignments,forall₂_map_left_iff,forall₂_map_right_iff,forall₂_same]
    exact fun o ho => assignment_name (valueWord o.2) (h o ho)
  have hcd : parseFrom {} [.word (plainWord "cd"),
      .word (plainWord (installDirectory i)),.op .andIf] =
        some ⟨[],⟨none,some (.simple [] [plainWord "cd",
          plainWord (installDirectory i)], true),begun []⟩,none⟩ := rfl
  have hm := parseFrom_assignments [] none
    (some (.simple [] [plainWord "cd",plainWord (installDirectory i)], true)) [] ha
  have hsh := parseStep_first [] none
    (some (.simple [] [plainWord "cd",plainWord (installDirectory i)], true))
    (optionAssignments options) (w := plainWord "/bin/sh") rfl rfl
  rw [parse,scriptTokens,parseFrom_append,hcd,Option.bind_some,parseFrom_append,hm,
    Option.bind_some,parseFrom,foldlM_cons,nil_append,hsh]
  rfl

theorem assigns_optionAssignments (options : FeatureOptions) :
    List.Forall₂ Assigns (optionAssignments options) (optionPairs options) := by
  rw [optionAssignments,optionPairs,forall₂_map_left_iff,forall₂_map_right_iff, forall₂_same]
  exact fun o _ => ⟨rfl,fun s => wordText_valueWord s o.2⟩

/-- The install script is started first, under the last value of every variable. -/
theorem run_installCommand (w : World) (sh : Startup) (env : Environment) (dir : Text) (i : ℕ)
    {assignments : List (Text × Word)} {pairs : List (Text × Text)}
    (h : List.Forall₂ Assigns assignments pairs) :
    ∃ s p xs, run w (installCommand i assignments) (initial sh env dir) = some s ∧
      s.started = p::xs ∧ p.argv = ["/bin/sh".toList,"./install.sh".toList] ∧
      p.directory = installDirectory i ∧
      ∀ q ∈ pairs, p.environment q.1 = lastValue pairs q.1 := by
  have hd : (installDirectory i).head? = some '/' := rfl
  have hn : installDirectory i ≠ [] := by
    intro he
    rw [he] at hd
    cases hd
  have hcd : run w (.simple [] [plainWord "cd".toList,plainWord (installDirectory i)])
      (initial sh env dir) = some (enter (initial sh env dir) (installDirectory i)) := by
    refine run_cd w rfl ?_ hd
    refine commandFields_plain _ ["cd".toList,installDirectory i] ?_
    simpa using hn
  let s₁ := enter (initial sh env dir) (installDirectory i)
  obtain ⟨env',hen,hv⟩ := overlay_eq s₁ h
  have hi := run_external w "/bin/sh".toList ["./install.sh".toList] rfl (commandFields_plain s₁
      ["/bin/sh".toList,"./install.sh".toList] (by decide)) rfl hen
  let s₂ := s₁.start w ["/bin/sh".toList,"./install.sh".toList] env'
  have hst : s₂.started =
      [⟨["/bin/sh".toList,"./install.sh".toList],env',installDirectory i⟩] := rfl
  have hf := (run_andThen_next w hcd rfl rfl).trans hi
  by_cases hs : s₂.status = 0
  · -- The script succeeded and its directory is removed.
    have hb := run_cd w rfl (commandFields_plain s₂ ["cd".toList,"/".toList] (by decide)) rfl
    have hr : run w (.simple [] [plainWord "rm".toList,plainWord "-rf".toList,
        plainWord (installDirectory i)]) (enter s₂ "/".toList) = _ :=
      run_external w "rm".toList ["-rf".toList,installDirectory i] rfl
        (commandFields_plain _ ["rm".toList,"-rf".toList,installDirectory i]
          (by simpa using hn)) rfl rfl
    have hl := (run_andThen_next w ((run_andThen_next w hf rfl hs).trans hb) rfl rfl).trans hr
    exact ⟨_,⟨["/bin/sh".toList,"./install.sh".toList],env',installDirectory i⟩,_,hl,rfl,rfl,rfl,hv⟩
  · exact ⟨s₂,_,[],run_andThen_stop w (run_andThen_stop w hf hs) hs,hst,rfl,rfl,hv⟩

/-- Options reach the install script exactly when equal variables have equal values and no
value holds a NUL. -/
theorem installsWithOptions_iff (i : ℕ) (h : NamesValid options) :
    InstallsWithOptions i options ↔
      OptionsAgree options ∧ ∀ o ∈ options.entries, '\x00' ∉ optionText o.2 := by
  have hm : '\x00' ∈ featureScript i (assignmentsText options) ↔
      ∃ o ∈ options.entries, '\x00' ∈ optionText o.2 :=
    (mem_featureScript (by decide)).trans (mem_assignmentsText (by decide) h)
  by_cases hnu : '\x00' ∈ featureScript i (assignmentsText options)
  · refine iff_of_false (fun hi => ?_) fun ha => ?_
    · obtain ⟨s,-,-,hs,-⟩ := hi ⟨fun _ => 0,fun _ => 0⟩ default (fun _ => none) []
      rw [runScript,if_pos hnu] at hs
      cases hs
    · obtain ⟨o,ho,hc⟩ := hm.mp hnu
      exact ha.2 o ho hc
  rw [and_iff_left fun o ho hc => hnu (hm.mpr ⟨o,ho,hc⟩)]
  have hre : readScript (featureScript i (assignmentsText options)) =
      some (installCommand i (optionAssignments options)) := by
    rw [readScript,lex_featureScript h]
    exact parse_scriptTokens h
  have hr : ∀ w sh env dir, runScript w sh env dir (featureScript i (assignmentsText options)) =
        run w (installCommand i (optionAssignments options)) (initial sh env dir) := by
    intro w sh env dir
    rw [runScript,if_neg hnu,hre]
    rfl
  have hl : OptionsAgree options ↔
      ∀ q ∈ optionPairs options, lastValue (optionPairs options) q.1 = some q.2 := by
    rw [lastValue_all_iff]
    simp only [optionPairs,forall_mem_map,OptionsAgree]
  rw [hl]
  constructor
  · intro hi q hq
    obtain ⟨o,ho,rfl⟩ := mem_map.mp hq
    -- Every run is the one run of the command, so the values are those of the variables.
    let w : World := ⟨fun _ => 0,fun _ => 0⟩
    obtain ⟨s,p,xs,hs,hst,-,-,hop⟩ := hi w default (fun _ => none) []
    obtain ⟨s',p',xs',hs',hst',-,-,he⟩ :=
      run_installCommand w default (fun _ => none) [] i (assigns_optionAssignments options)
    rw [hr,hs'] at hs
    cases hs
    rw [hst'] at hst
    cases hst
    exact (he _ hq).symm.trans (hop o ho)
  · intro hv w sh env dir
    obtain ⟨s,p,xs,hs,hst,ha,hd,he⟩ :=
      run_installCommand w sh env dir i (assigns_optionAssignments options)
    refine ⟨s,p,xs,(hr w sh env dir).trans hs,hst,ha,hd,?_⟩
    intro o ho
    have hm :=
      mem_map_of_mem (f := fun o : Text × FeatureValue => (toAsciiUppercase o.1, optionText o.2)) ho
    exact (he _ hm).trans (hv _ hm)

end Cdenv.FeatureScript
