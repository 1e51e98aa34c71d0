import Cdenv.TextScan

/-!
# The Dockerfile grammar

Lines, continuations, instructions, and the value language of a double-quoted label. Blank lines
and comments are dropped. Between double quotes a backslash escapes the quote, the dollar sign and
itself and is kept before anything else, and `$` begins an expansion only where a name, a special
parameter or a brace follows.

Which characters beyond ASCII are letters is the parameter `letter`.
-/
namespace Cdenv.DockerfileGrammar
open TextScan List

structure Instruction where
  (keyword argument : Text)
deriving DecidableEq

def isSkipped (line : Text) : Bool :=
  match trimStart line with
  | [] => true
  | c::_ => c == '#'

/-- A line that ends in a backslash goes on in the next one. -/
def joinLines : List Text → List Text
  | [] => []
  | line::rest =>
    if line.getLast? = some '\\' then
      match joinLines rest with
      | [] => [line.dropLast]
      | next::more => (line.dropLast++next)::more
    else line::joinLines rest

/-- The first word is the keyword, in any case; the rest is the argument. -/
def readInstruction (line : Text) : Instruction :=
  let line := trimStart line
  ⟨toAsciiUppercase (line.takeWhile (!isWhitespace ·)),trim (line.dropWhile (!isWhitespace ·))⟩

def instructions (text : Text) : List Instruction :=
  (joinLines ((text.splitOn '\n').filter (!isSkipped ·))).map readInstruction

variable {lines : List Text} {i : Instruction}

theorem joinLines_of_complete (h : ∀ l ∈ lines, l.getLast? ≠ some '\\') :
    joinLines lines = lines := by
  induction lines with
  | nil => rfl
  | cons line xs ih =>
    have hr := ih (forall_mem_cons.mp h).2
    rw [joinLines,if_neg (h line mem_cons_self),hr]

theorem mem_joinLines {c : Char} {l : Text} (hl : l ∈ joinLines lines) (hc : c ∈ l)
    : ∃ line ∈ lines, c ∈ line := by
  induction lines generalizing l with
  | nil => simp [joinLines] at hl
  | cons line xs ih =>
    rw [joinLines] at hl
    have hla : l ∈ joinLines xs → ∃ m ∈ line::xs, c ∈ m := by
      intro hme
      obtain ⟨m,hm,hcm⟩ := ih hme hc
      exact ⟨m,mem_cons_of_mem _ hm,hcm⟩
    split_ifs at hl
    · cases hj : joinLines xs with
      | nil =>
        rw [hj] at hl
        rw [mem_singleton.mp hl] at hc
        exact ⟨line,mem_cons_self,mem_of_mem_dropLast hc⟩
      | cons next more =>
        rw [hj] at hl hla
        rcases mem_cons.mp hl with rfl | hl
        · rcases mem_append.mp hc with hc | hc
          · exact ⟨line,mem_cons_self,mem_of_mem_dropLast hc⟩
          · obtain ⟨m,hm,hcm⟩ := ih (hj ▸ mem_cons_self) hc
            exact ⟨m,mem_cons_of_mem _ hm,hcm⟩
        · exact hla (mem_cons_of_mem _ hl)
    · rcases mem_cons.mp hl with rfl | hl
      · exact ⟨l,mem_cons_self,hc⟩
      · exact hla hl

theorem newline_not_mem_argument {t : Text} (h : i ∈ instructions t) : '\n' ∉ i.argument := by
  intro hc
  obtain ⟨line,hli,rfl⟩ := mem_map.mp h
  have hm : '\n' ∈ line := by
    have hd := mem_of_mem_trim hc
    exact (dropWhile_suffix _).mem ((dropWhile_suffix _).mem hd)
  obtain ⟨l,hl,hcl⟩ := mem_joinLines hli hm
  exact not_mem_of_mem_splitOn (mem_filter.mp hl).1 hcl

theorem splitOn_lines (h : ∀ l ∈ lines, '\n' ∉ l) :
    (lines.flatMap (· ++ ['\n'])).splitOn '\n' = lines++[[]] := by
  induction lines with
  | nil => rfl
  | cons line xs ih =>
    have hr := ih (forall_mem_cons.mp h).2
    rw [flatMap_cons,append_assoc,singleton_append,
      splitOn_append_cons_self_of_not_mem (h line mem_cons_self),hr,cons_append]

theorem trim_eq_self {s : Text} (hh : ∀ c, s.head? = some c → isWhitespace c = false)
    (hl : ∀ c, s.getLast? = some c → isWhitespace c = false) : trim s = s := by
  have hs : trimStart s = s := by
    cases s with
    | nil => rfl
    | cons c s => simp [trimStart,hh c rfl]
  rw [trim,hs,rdropWhile_eq_self_iff]
  intro hne
  rw [hl _ (getLast?_eq_some_getLast hne)]
  exact Bool.false_ne_true

/-- A line of a keyword and an argument that neither begins nor ends with a blank. -/
theorem readInstruction_line {keyword argument : Text} (hne : keyword ≠ [])
    (hk : ∀ c ∈ keyword, isWhitespace c = false) (ha : trim argument = argument) :
    readInstruction (keyword++ ' '::argument) = ⟨toAsciiUppercase keyword,argument⟩ := by
  have hs : trimStart (keyword++ ' '::argument) = keyword++ ' '::argument := by
    cases keyword with
    | nil => exact absurd rfl hne
    | cons c keyword => simp [trimStart,hk c mem_cons_self]
  have hw : ∀ c ∈ keyword, (!isWhitespace c) = true := by simpa using hk
  have ht : (keyword++ ' '::argument).takeWhile (!isWhitespace ·) = keyword := by
    rw [takeWhile_append_of_pos hw,takeWhile_cons_of_neg (by decide),append_nil]
  have hd : (keyword++ ' '::argument).dropWhile (!isWhitespace ·) = ' '::argument := by
    rw [dropWhile_append_of_pos hw,dropWhile_cons_of_neg (by decide)]
  have htr : trim (' '::argument) = argument := by
    rw [trim,trimStart,dropWhile_cons_of_pos (by decide)]
    exact ha
  simp only [readInstruction,hs,ht,hd,htr]

theorem instructions_lines (hl : ∀ l ∈ lines, '\n' ∉ l)
    (he : ∀ l ∈ lines, l.getLast? ≠ some '\\') (hs : ∀ l ∈ lines, isSkipped l = false) :
    instructions (lines.flatMap (· ++ ['\n'])) = lines.map readInstruction := by
  have hf : (lines++[[]]).filter (!isSkipped ·) = lines := by
    rw [filter_append,filter_eq_self.mpr (by simpa using hs)]
    exact append_nil lines
  rw [instructions,splitOn_lines hl,hf,joinLines_of_complete he]

/-- A first line that ends in a backslash is read together with the second. -/
theorem instructions_continued {fst snd : Text} (xs : Text) (hf : '\n' ∉ fst)
    (hse : '\n' ∉ snd) (hs : isSkipped fst = false)
    (hs' : isSkipped snd = false) (he : fst.getLast? = some '\\')
    (he' : snd.getLast? ≠ some '\\') :
    ∃ more, instructions (fst++ '\n'::(snd++ '\n'::xs)) =
      readInstruction (fst.dropLast++snd)::more := by
  rw [instructions,splitOn_append_cons_self_of_not_mem hf,
    splitOn_append_cons_self_of_not_mem hse,filter_cons_of_pos (by simp [hs]),
    filter_cons_of_pos (by simp [hs']),joinLines,if_pos he,joinLines,if_neg he']
  exact ⟨_,rfl⟩

def Instruction.line (i : Instruction) : Text := i.keyword++ ' '::i.argument

def keywords : List Text := ["FROM","USER","COPY","RUN","LABEL"].map String.toList

/-- An instruction that its line stands for: the argument lies within the line, does not
continue it and has no blanks at its ends. -/
structure Complete (i : Instruction) : Prop where
  keyword : i.keyword ∈ keywords
  within : '\n' ∉ i.argument
  ends : i.argument.getLast? ≠ some '\\'
  trimmed : trim i.argument = i.argument

theorem Complete.of_ends {kw arg : Text} (hk : kw ∈ keywords)
    (hw : '\n' ∉ arg) (hh : ∀ c, arg.head? = some c → isWhitespace c = false)
    (hl : ∀ c, arg.getLast? = some c → isWhitespace c = false ∧ c ≠ '\\') :
    Complete ⟨kw,arg⟩ :=
  ⟨hk,hw,fun h => (hl _ h).2 rfl,trim_eq_self hh fun c hc => (hl c hc).1⟩

theorem Complete.line_within (h : Complete i) : '\n' ∉ i.line := by
  have hk : ∀ k ∈ keywords, '\n' ∉ k := by decide
  simp only [Instruction.line,mem_append,mem_cons,not_or]
  exact ⟨hk _ h.keyword,by decide,h.within⟩

theorem Complete.line_ends (h : Complete i) : i.line.getLast? ≠ some '\\' := by
  intro hl
  rw [Instruction.line,getLast?_append_of_ne_nil _ (cons_ne_nil _ _)] at hl
  cases ha : i.argument with
  | nil => simp [ha] at hl
  | cons c s =>
    exact h.ends (ha ▸ hl)

theorem isSkipped_line {kw : Text} (h : kw ∈ keywords) (s : Text) : isSkipped (kw++s) = false := by
  simp only [keywords,map_cons,map_nil,mem_cons,not_mem_nil,or_false] at h
  rcases h with rfl | rfl | rfl | rfl | rfl <;> rfl

theorem Complete.read (h : Complete i) : readInstruction i.line = i := by
  have hk : ∀ k ∈ keywords, k ≠ [] ∧ k.any isWhitespace = false ∧
      toAsciiUppercase k = k := by decide
  obtain ⟨hne,hw,hu⟩ := hk _ h.keyword
  rw [Instruction.line,readInstruction_line hne (by simpa using hw) h.trimmed,hu]

/-- Complete instructions are read back from their lines. -/
theorem instructions_of_complete {l : List Instruction} (h : ∀ i ∈ l, Complete i) :
    instructions (l.flatMap fun i => i.line++['\n']) = l := by
  have hl : (l.flatMap fun i => i.line++['\n']) =
      (l.map Instruction.line).flatMap (· ++ ['\n']) := by
    rw [flatMap_map]
  rw [hl,instructions_lines,map_map]
  · have hr : ∀ i ∈ l, (readInstruction ∘ Instruction.line) i = id i := fun i hi => (h i hi).read
    rw [map_congr_left hr,map_id]
  · exact forall_mem_map.mpr fun i hi => (h i hi).line_within
  · exact forall_mem_map.mpr fun i hi => (h i hi).line_ends
  · exact forall_mem_map.mpr fun i hi => isSkipped_line (h i hi).keyword _

section
variable (letter : Char → Bool)

def isNameChar (c : Char) : Bool :=
  c == '_' || c.isAlphanum || (128 ≤ c.toNat && letter c)

def isSpecial (c : Char) : Bool := ['@','*','#','?','-','$','!'].contains c

/-- What may follow a dollar sign that begins an expansion. -/
def beginsExpansion (c : Char) : Bool := c == '\x7b' || isSpecial c || isNameChar letter c

/-- Whether a name goes on: one that begins with a digit holds only digits. -/
def continuesName (read : Text) (c : Char) : Bool :=
  isNameChar letter c && (!(read.head?.any Char.isDigit) || c.isDigit)

inductive LabelMode where
  | text | escape | dollar
  | name (read : Text)
  | brace (read : Text)

variable (env : Text → Option Text)

def expansion (name : Text) : Text := (env name).getD []

/-- The rest of a double-quoted value; the closing quote has to be the last character. -/
def readQuoted : LabelMode → Text → Option Text
  | _, [] => none
  | .text, c::s =>
    if c = '"' then if s = [] then some [] else none
    else if c = '\\' then readQuoted .escape s
    else if c = '$' then readQuoted .dollar s
    else (readQuoted .text s).map (c :: ·)
  | .escape, c::s =>
    if ['"','$','\\'].contains c then (readQuoted .text s).map (c :: ·)
    else (readQuoted .text s).map fun t => '\\'::c::t
  | .dollar, c::s =>
    if c = '\x7b' then readQuoted (.brace []) s
    else if isSpecial c then (readQuoted .text s).map (expansion env [c] ++ ·)
    else if isNameChar letter c then readQuoted (.name [c]) s
    else if c = '"' then if s = [] then some ['$'] else none
    else if c = '\\' then (readQuoted .escape s).map ('$' :: ·)
    else (readQuoted .text s).map fun t => '$'::c::t
  | .name read, c::s =>
    if continuesName letter read c then readQuoted (.name (read++[c])) s
    else if c = '"' then if s = [] then some (expansion env read) else none
    else if c = '\\' then (readQuoted .escape s).map (expansion env read ++ ·)
    else if c = '$' then (readQuoted .dollar s).map (expansion env read ++ ·)
    else (readQuoted .text s).map fun t => expansion env read++c::t
  | .brace read, c::s =>
    if c = '\x7d' then (readQuoted .text s).map (expansion env read ++ ·)
    else if isNameChar letter c then readQuoted (.brace (read++[c])) s
    else none

def readLabel (argument : Text) : Option (Text × Text) :=
  match splitOnce '=' argument with
  | some (key, '"'::quoted) => (readQuoted letter env .text quoted).map fun value => (key, value)
  | _ => none

end

end Cdenv.DockerfileGrammar
