import Cdenv.Fallible
import Cdenv.ShellGrammar

/-!
# Running shell commands

The meaning of the commands of the grammar. A run records every process it starts, with its
arguments and its environment, in the order of the starts; the processes of a background job are
recorded where the job is started. Exit statuses and process ids come from outside and are
parameters.

How a shell begins is a parameter. A run is undefined where it would leave the modelled part
of the language.
-/
namespace Cdenv.Shell
open TextScan Fallible List

abbrev Environment := Text → Option Text

/-- Variables of the initial environment are exported and stay so when they are assigned; new
variables are not exported. -/
structure Setting where
  value : Text
  exported : Bool

/-- A process with its arguments and what it sees of its surroundings. -/
structure Started where
  argv : List Text
  environment : Environment
  directory : Text

/-- The exit status of the nth started process and the id of the nth background job. -/
structure World where
  (exit pid : ℕ → ℕ)

structure State where
  settings : Text → Option Setting
  positional : List Text := []
  status : ℕ := 0
  /-- Background jobs of this shell with their exit statuses, the last one last. -/
  jobs : List (ℕ × ℕ) := []
  spawned : ℕ := 0
  directory : Text
  started : List Started := []
  /-- Set by `exec` and `exit`: nothing else runs. -/
  quit : Bool := false

/-- How a shell begins: the variables it sets itself, marked where they are exported in any
case, and the names of the environment that it hands on, all shell variables among them. -/
structure Startup where
  own : Text → Option Setting
  passes : Text → Bool
  own_name : ∀ name s, own name = some s → isName name = true
  passes_name : ∀ name, isName name = true → passes name = true

instance Startup.instInhabited : Inhabited Startup :=
  ⟨⟨fun _ => none,fun _ => true,fun _ _ h => (Option.some_ne_none _ h.symm).elim,fun _ _ => rfl⟩⟩

def Startup.values (shell : Startup) : Environment := fun name => (shell.own name).map (·.value)

/-- The variables at the start: the shell's own, and those of the environment. -/
def imported (shell : Startup) (env : Environment) : Text → Option Setting := fun name =>
  match shell.own name with
  | some s => some ⟨s.value,s.exported || (env name).isSome⟩
  | none => if shell.passes name then (env name).map fun value => ⟨value,true⟩ else none

def initial (shell : Startup) (env : Environment) (directory : Text) : State :=
  { settings := imported shell env, directory }

def exported (settings : Text → Option Setting) : Environment := fun name =>
  (settings name).bind fun s => if s.exported then some s.value else none

/-- Assignment keeps the export mark of a variable. -/
def assign (settings : Text → Option Setting) (name value : Text) : Text → Option Setting :=
  Function.update settings name
    (some ⟨value,((settings name).map (·.exported)).getD false⟩)

def State.set (s : State) (name value : Text) : State :=
  { s with settings := assign s.settings name value }

def State.lookup (s : State) (name : Text) : Option Text := (s.settings name).map (·.value)

def parameterText (s : State) : Parameter → Option Text
  | .value name => some ((s.lookup name).getD [])
  | .alternative name word => some (if (s.lookup name).isSome then word else [])
  | .all => none
  | .status => some (decimal s.status)
  | .job => some ((s.jobs.getLast?.map fun j => decimal j.1).getD [])

def pieceText (s : State) : Piece → Option Text
  | .plain c => some [c]
  | .quoted text => some text
  | .param _ p => parameterText s p

/-- The value of an assignment: one text, not split. -/
def wordText (s : State) (w : Word) : Option Text := (w.mapM (pieceText s)).map List.flatten

/-- Finished fields and the field being built. -/
structure Fields where
  finished : List Text := []
  building : Option Text := none

def Fields.add (f : Fields) (t : Text) : Fields := ⟨f.finished,some (f.building.getD []++t)⟩

def Fields.cut (f : Fields) : Fields := ⟨f.finished++f.building.toList,none⟩

def isFieldSeparator (c : Char) : Bool := c == ' ' || c == '\t' || c == '\n'

def Fields.split (f : Fields) (t : Text) : Fields :=
  t.foldl (fun f c => if isFieldSeparator c then f.cut else f.add [c]) f

/-- The positional parameters between double quotes: each is a field of its own, the
first and the last joined to what stands beside them. -/
def Fields.addAll (f : Fields) : List Text → Fields
  | [] => f
  | [a] => f.add a
  | a::rest => Fields.addAll (f.add a).cut rest

def addPiece (s : State) (f : Fields) : Piece → Option Fields
  | .plain c => some (f.add [c])
  | .quoted text => some (f.add text)
  | .param true .all => some (f.addAll s.positional)
  | .param true p => (parameterText s p).map f.add
  | .param false p =>
    (parameterText s p).bind fun t =>
      if t.any fun c => ['*','?','['].contains c then none else some (f.split t)

def wordFields (s : State) (w : Word) : Option (List Text) :=
  (w.foldlM (addPiece s) {}).map fun f => f.cut.finished

def commandFields (s : State) (words : List Word) : Option (List Text) :=
  (words.mapM (wordFields s)).map List.flatten

section
variable (s : State)

theorem wordText_append {a b : Word} {t u : Text} (ha : wordText s a = some t)
    (hb : wordText s b = some u) : wordText s (a++b) = some (t++u) := by
  simp only [wordText,Option.map_eq_some_iff] at *
  obtain ⟨ts,hts,rfl⟩ := ha
  obtain ⟨us,hus,rfl⟩ := hb
  refine ⟨ts++us,?_,flatten_append⟩
  rw [mapM_append,hts,hus]
  rfl

theorem wordText_plain (t : Text) : wordText s (t.map .plain) = some t := by
  induction t with
  | nil => rfl
  | cons c t ih => exact wordText_append s (a := [.plain c]) rfl ih

theorem addPiece_plain (f : Fields) (t : Text) (h : t ≠ []) :
    (t.map Piece.plain).foldlM (addPiece s) f = some (f.add t) := by
  induction t generalizing f with
  | nil => exact absurd rfl h
  | cons c t ih =>
    cases t with
    | nil => rfl
    | cons d t =>
      have hr := ih (f.add [c]) (cons_ne_nil d t)
      rw [map_cons,foldlM_cons]
      refine hr.trans ?_
      simp [Fields.add]

/-- An unquoted word without parameters is one field. -/
theorem wordFields_plain (t : Text) (h : t ≠ []) : wordFields s (plainWord t) = some [t] := by
  rw [wordFields,plainWord,addPiece_plain s {} t h]
  rfl

theorem commandFields_cons {w : Word} {ws : List Word} {f fs : List Text}
    (h : wordFields s w = some f) (hs : commandFields s ws = some fs) :
    commandFields s (w::ws) = some (f++fs) := by
  simp only [commandFields,Option.map_eq_some_iff] at *
  obtain ⟨r,hr,rfl⟩ := hs
  refine ⟨f::r,?_,flatten_cons⟩
  rw [mapM_cons,h,hr]
  rfl

theorem commandFields_plain (texts : List Text) (h : ∀ t ∈ texts, t ≠ []) :
    commandFields s (texts.map plainWord) = some texts := by
  induction texts with
  | nil => rfl
  | cons t texts ih =>
    have hr := ih (forall_mem_cons.mp h).2
    exact commandFields_cons s (wordFields_plain s t (h t mem_cons_self)) hr

end

def assignAll (s : State) (assignments : List (Text × Word)) : Option State :=
  assignments.foldlM (fun s a => (wordText s a.2).map fun value => s.set a.1 value) s

/-- Prefix assignments are exported to the one command only. -/
def overlay (s : State) (assignments : List (Text × Word)) : Option Environment :=
  (assignAll s assignments).map fun t => fun name =>
    if assignments.any fun a => a.1 == name then t.lookup name else exported s.settings name

@[simp] theorem lookup_set (s : State) (nm v n : Text) :
    (s.set nm v).lookup n = if nm = n then some v else s.lookup n := by
  simp only [State.set,State.lookup,assign,Function.update_apply,eq_comm (a := n)]
  split_ifs <;> rfl

/-- The value of the last pair with the name. -/
def lastValue (pairs : List (Text × Text)) (name : Text) : Option Text :=
  (pairs.reverse.find? fun p => p.1 == name).map (·.2)

theorem lastValue_cons (p : Text × Text) (pairs : List (Text × Text)) (n : Text) :
    lastValue (p::pairs) n = (lastValue pairs n).or (if p.1 = n then some p.2 else none) := by
  simp only [lastValue,reverse_cons,find?_append]
  cases pairs.reverse.find? fun p => p.1 == n with
  | some q => rfl
  | none => by_cases h : p.1 = n <;> simp [h]

theorem lookup_foldl_set (s : State) (pairs : List (Text × Text)) (n : Text) :
    (pairs.foldl (fun s p => s.set p.1 p.2) s).lookup n = (lastValue pairs n).or (s.lookup n) := by
  induction pairs generalizing s with
  | nil => rfl
  | cons p pairs ih =>
    rw [foldl_cons,ih,lookup_set,lastValue_cons]
    cases lastValue pairs n <;> by_cases h : p.1 = n <;> simp [h]

variable {pairs : List (Text × Text)}

/-- Every option of a list is the last with its name exactly when equal names have equal
values. -/
theorem lastValue_all_iff : (∀ p ∈ pairs, lastValue pairs p.1 = some p.2) ↔
      ∀ p ∈ pairs, ∀ q ∈ pairs, p.1 = q.1 → p.2 = q.2 := by
  constructor
  · intro h p hp q hq he
    have hl := (h p hp).symm.trans (he ▸ h q hq)
    exact Option.some.inj hl
  · intro h p hp
    cases hf : pairs.reverse.find? fun q => q.1 == p.1 with
    | none =>
      have hno := find?_eq_none.mp hf p (mem_reverse.mpr hp)
      simp at hno
    | some q =>
      have hn : q.1 = p.1 := by simpa using find?_some hf
      have hm := mem_reverse.mp (mem_of_find?_eq_some hf)
      rw [lastValue,hf,Option.map_some,h q hm p hp hn]

/-- An assignment whose word has the same text in every state. -/
def Assigns (a : Text × Word) (p : Text × Text) : Prop :=
  a.1 = p.1 ∧ ∀ s, wordText s a.2 = some p.2

variable {asg : List (Text × Word)}

theorem assignAll_eq (s : State) (h : List.Forall₂ Assigns asg pairs) :
    assignAll s asg = some (pairs.foldl (fun s p => s.set p.1 p.2) s) := by
  induction h generalizing s with
  | nil => rfl
  | @cons a p asg pairs ha hr ih =>
    rw [assignAll,foldlM_cons,ha.2 s,ha.1]
    exact ih (s.set p.1 p.2)

theorem overlay_eq (s : State) (h : List.Forall₂ Assigns asg pairs) :
    ∃ env, overlay s asg = some env ∧ ∀ p ∈ pairs, env p.1 = lastValue pairs p.1 := by
  rw [overlay,assignAll_eq s h]
  refine ⟨_,rfl,fun p hp => ?_⟩
  obtain ⟨a,ha,hap⟩ := forall₂_mem_right h hp
  have han : (asg.any fun a => a.1 == p.1) = true := any_eq_true.mpr ⟨a,ha,by simp [hap.1]⟩
  have hs : (lastValue pairs p.1).isSome = true := by
    simp only [lastValue,Option.isSome_map,find?_isSome]
    exact ⟨p,mem_reverse.mpr hp,by simp⟩
  refine (if_pos han).trans ?_
  rw [lookup_foldl_set]
  cases hl : lastValue pairs p.1 with
  | none => simp [hl] at hs
  | some v => rfl

def readDecimal (t : Text) : Option ℕ :=
  if t ≠ [] ∧ t.all Char.isDigit then some (t.foldl (fun n c => 10*n+(c.toNat - 48)) 0)
  else none

def truth (b : Bool) : ℕ := if b then 0 else 1

/-- The operators of `[` that the scripts use. -/
def test : List Text → Option ℕ
  | [a,op,b,close] =>
    if close ≠ "]" then none
    else if op = "=" then some (truth (a == b))
    else if op = "-eq" then
      some (match readDecimal a, readDecimal b with
        | some m, some n => truth (m == n)
        | _, _ => 2)
    else none
  | _ => none

inductive Builtin where
  | set | exec | exit | wait | test | cd

def builtin (name : Text) : Option Builtin :=
  if name = "set" then some .set
  else if name = "exec" then some .exec
  else if name = "exit" then some .exit
  else if name = "wait" then some .wait
  else if name = "[" then some .test
  else if name = "cd" then some .cd
  else none

def isOption : Text → Bool
  | '-'::_::_ => true
  | _ => false

/-- The operands of a utility without options: two dashes in front are dropped, any other
option is an error. -/
def operands : List Text → Option (List Text)
  | [] => some []
  | arg::rest =>
    if arg = "--" then some rest else if isOption arg then none else some (arg::rest)

section
variable (world w : World)

def State.start (s : State) (argv : List Text) (environment : Environment) : State :=
  { s with
    status := world.exit s.started.length
    started := s.started++[⟨argv,environment,s.directory⟩] }

/-- Directories that scripts enter are taken to exist. -/
def enter (s : State) (directory : Text) : State :=
  { (s.set "OLDPWD" s.directory).set "PWD" directory with
    directory, status := 0 }

def runBuiltin (s : State) : Builtin → List Text → Option State
  | .set, args =>
    match args with
    | dashes::rest =>
      if dashes = "--" then some { s with positional := rest, status := 0 } else none
    | [] => none
  | .exec, args =>
    match operands args with
    | none => none
    | some [] => some { s with status := 0 }
    | some argv => some { s.start world argv (exported s.settings) with quit := true }
  | .exit, args =>
    match args with
    | [] => some { s with quit := true }
    | [n] => (readDecimal n).map fun n => { s with status := n % 256, quit := true }
    | _ => none
  | .wait, args =>
    match args with
    | [p] => some { s with
        status := ((s.jobs.find? fun j => decimal j.1 == p).map (·.2)).getD 127 }
    | _ => none
  | .test, args => (test args).map fun n => { s with status := n }
  | .cd, args =>
    match args with
    | [directory] => if directory.head? = some '/' then some (enter s directory) else none
    | _ => none

def runSimple (s : State) (assignments : List (Text × Word)) (words : List Word) : Option State :=
  (commandFields s words).bind fun args =>
    match args with
    | [] => (assignAll s assignments).map fun t => { t with status := 0 }
    | name::rest =>
      match builtin name with
      | some b => if assignments.isEmpty then runBuiltin world s b rest else none
      | none => (overlay s assignments).map fun env => s.start world (name::rest) env

/-- A subshell works on a copy; its starts are seen outside. -/
def State.fork (s : State) : State := { s with jobs := [], quit := false }

def State.rejoin (s child : State) : State :=
  { s with started := child.started, spawned := child.spawned, status := child.status }

def State.spawn (s child : State) : State :=
  { s with
    started := child.started
    spawned := child.spawned+1
    jobs := s.jobs++[(world.pid child.spawned, child.status)]
    status := 0 }

/-- A command after `exit` does nothing. -/
def run : Command → State → Option State
  | .skip, s => if s.quit then some s else some { s with status := 0 }
  | .simple assignments words, s =>
    if s.quit then some s else runSimple world s assignments words
  | .seq first second, s => (run first s).bind (run second)
  | .job command, s =>
    if s.quit then some s else (run command s.fork).map (s.spawn world)
  | .andThen first second, s =>
    (run first s).bind fun t => if t.quit || t.status != 0 then some t else run second t
  | .orElse first second, s =>
    (run first s).bind fun t => if t.quit || t.status == 0 then some t else run second t
  | .subshell command, s =>
    if s.quit then some s else (run command s.fork).map s.rejoin
  | .cond test yes no, s =>
    (run test s).bind fun t =>
      if t.quit then some t else if t.status = 0 then run yes t else run no t
  | .forEach name words body, s =>
    if s.quit then some s
    else (commandFields s words).bind fun args =>
      args.foldlM (fun t arg => if t.quit then some t else run body (t.set name arg))
        { s with status := 0 }

attribute [local simp] run

variable {s : State}
variable {first second : Command} {words : List Word} {t : State}

theorem run_andThen_next (h : run w first s = some t) (ho : t.quit = false)
    (hs : t.status = 0) : run w (.andThen first second) s = run w second t := by
  simp [h,ho,hs]

theorem run_andThen_stop (h : run w first s = some t) (hs : t.status ≠ 0) :
    run w (.andThen first second) s = some t := by
  simp [h,hs]

theorem run_external {asg : List (Text × Word)} (n : Text) (args : List Text)
    {env : Environment} (ho : s.quit = false)
    (hw : commandFields s words = some (n::args)) (hn : builtin n = none)
    (he : overlay s asg = some env) :
    run w (.simple asg words) s = some (s.start w (n::args) env) := by
  simp [ho,runSimple,hw,hn,he]

theorem run_builtin (n : Text) (args : List Text) {b : Builtin} (ho : s.quit = false)
    (hw : commandFields s words = some (n::args)) (hn : builtin n = some b) :
    run w (.simple [] words) s = runBuiltin w s b args := by
  simp [ho,runSimple,hw,hn]

theorem run_cd {dir : Text} (ho : s.quit = false)
    (hw : commandFields s words = some ["cd".toList,dir])
    (ha : dir.head? = some '/') :
    run w (.simple [] words) s = some (enter s dir) :=
  (run_builtin w "cd" [dir] ho hw rfl).trans (if_pos ha)

/-- Read a script and run it in a fresh shell. No argument of a process holds a NUL, so
a script that does cannot be handed over. -/
def runScript (shell : Startup) (env : Environment) (directory : Text) (script : Text) :
    Option State :=
  if '\x00' ∈ script then none
  else (readScript script).bind fun command => run world command (initial shell env directory)

end

end Cdenv.Shell

namespace Cdenv.ShellQuoting
open TextScan Shell

def escapeQuote (c : Char) : Text := if c = '\'' then "'\"'\"'" else [c]

def shellQuote (value : Text) : Text := '\''::value.flatMap escapeQuote++['\'']

/-- Quoting adds quotes only. -/
theorem mem_shellQuote {c : Char} {value : Text} (hs : c ≠ '\'') (hd : c ≠ '"') :
    c ∈ shellQuote value ↔ c ∈ value := by
  have hes : ∀ d, c ∈ escapeQuote d ↔ c = d := by
    intro d
    by_cases h : d = '\''
    · subst h
      simp [escapeQuote,hs,hd]
    · simp [escapeQuote,h]
  simp only [shellQuote,List.mem_append,List.mem_cons,List.mem_flatMap,hes,
    List.not_mem_nil,hs,false_or,or_false]
  exact ⟨fun ⟨d,hd,he⟩ => he ▸ hd,fun h => ⟨c,h,rfl⟩⟩

/-- The pieces of a quoted value, when a text already stands in the open quotes. -/
def quotedPieces (text : Text) : Text → Word
  | [] => [.quoted text]
  | c::s =>
    if c = '\'' then .quoted text :: .quoted ['\'']::quotedPieces [] s
    else quotedPieces (text++[c]) s

theorem lexes_quoteBody (w : Word) (t v : Text) :
    Lexes (.single w t) (v.flatMap escapeQuote++['\'']) [] (.word (w++quotedPieces t v)) := by
  induction v generalizing w t with
  | nil => rfl
  | cons c v ih =>
    simp only [List.flatMap_cons,escapeQuote,quotedPieces,List.append_assoc]
    split_ifs with hc
    · -- The four characters behind the closing quote produce the piece `"'"`.
      have hq : Lexes (.single w t) "'\"'\"'" []
          (.single (w++[.quoted t]++[.quoted ['\'']]) []) := rfl
      have hr := hq.append (ih (w++[.quoted t]++[.quoted ['\'']]) [])
      simpa using hr
    · have hs : lexStep ⟨[],.single w t⟩ c = some ⟨[],.single w (t++[c])⟩ := by
        simp [lexStep,hc]
      exact Lexes.cons hs (ih w (t++[c]))

theorem lexes_shellQuote (w : Word) (v : Text) :
    Lexes (.word w) (shellQuote v) [] (.word (w++quotedPieces [] v)) := by
  have ho : lexStep ⟨[],.word w⟩ '\'' = some ⟨[],.single w []⟩ := rfl
  exact Lexes.cons ho (lexes_quoteBody w [] v)

theorem wordText_quotedPieces (s : State) (t v : Text) :
    wordText s (quotedPieces t v) = some (t++v) := by
  induction v generalizing t with
  | nil => simp [quotedPieces,wordText,pieceText]
  | cons c v ih =>
    simp only [quotedPieces]
    split_ifs with hc
    · have hh : wordText s [.quoted t,.quoted ['\'']] = some (t++['\'']) := by
        simp [wordText,pieceText]
      rw [hc]
      simpa using wordText_append s hh (ih [])
    · rw [ih (t++[c])]
      simp

end Cdenv.ShellQuoting
