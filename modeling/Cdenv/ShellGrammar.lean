import Cdenv.TextScan

/-!
# A POSIX shell grammar

Lexer and parser for the part of the POSIX shell language that generated scripts are written in:
the three kinds of quoting, parameters, assignments, lists and and-or lists, subshells, background
jobs, `if` and `for`. What both make of a concatenation is composed from what they make of its
parts. Everything outside the part is refused.
-/
namespace Cdenv.Shell
open TextScan List

inductive Parameter where
  | value (name : Text)
  /-- `${name+word}`: the word if the variable is set. -/
  | alternative (name word : Text)
  | all | status | job
deriving DecidableEq

inductive Piece where
  | plain (c : Char)
  | quoted (text : Text)
  | param (quoted : Bool) (p : Parameter)
deriving DecidableEq

abbrev Word := List Piece

def plainWord (t : Text) : Word := t.map .plain

inductive Operator where
  | semicolon | ampersand | andIf | orIf | lparen | rparen | newline
deriving DecidableEq

inductive Token where
  | word (w : Word)
  | op (o : Operator)

/-- What the lexer is inside of. In double quotes it keeps the text since the last
piece, and whether the quotes have produced a piece yet. -/
inductive Mode where
  | between
  | word (w : Word)
  | escape (w : Word)
  | single (w : Word) (text : Text)
  | double (w : Word) (text : Text) (fresh : Bool)
  | doubleEscape (w : Word) (text : Text) (fresh : Bool)
  | dollar (quoted : Bool) (w : Word)
  | name (quoted : Bool) (w : Word) (read : Text)
  | brace (quoted : Bool) (w : Word) (read : Text)
  | ampersand | bar | comment

structure Lexer where
  tokens : List Token
  mode : Mode

/-- A character that ends a word and belongs to none. -/
def delimiter (tokens : List Token) (c : Char) : Option Lexer :=
  if c = ' ' ∨ c = '\t' then some ⟨tokens,.between⟩
  else if c = '\n' then some ⟨tokens++[.op .newline],.between⟩
  else if c = ';' then some ⟨tokens++[.op .semicolon],.between⟩
  else if c = '(' then some ⟨tokens++[.op .lparen],.between⟩
  else if c = ')' then some ⟨tokens++[.op .rparen],.between⟩
  else if c = '&' then some ⟨tokens,.ampersand⟩
  else if c = '|' then some ⟨tokens,.bar⟩
  else none

/-- Redirections, command substitution, patterns and tilde expansion. -/
def isRefused (c : Char) : Bool := ['<','>','\x60','*','?','~'].contains c

def inWord (tokens : List Token) (w : Word) (c : Char) : Option Lexer :=
  match delimiter (tokens++[.word w]) c with
  | some l => some l
  | none =>
    if c = '\'' then some ⟨tokens,.single w []⟩
    else if c = '"' then some ⟨tokens,.double w [] true⟩
    else if c = '\\' then some ⟨tokens,.escape w⟩
    else if c = '$' then some ⟨tokens,.dollar false w⟩
    else if isRefused c || (c == '[' && !w.isEmpty) then none
    else some ⟨tokens,.word (w++[.plain c])⟩

def atStart (tokens : List Token) (c : Char) : Option Lexer :=
  match delimiter tokens c with
  | some l => some l
  | none => if c = '#' then some ⟨tokens,.comment⟩ else inWord tokens [] c

def flush (w : Word) (text : Text) : Word := if text = [] then w else w++[.quoted text]

def inDouble (tokens : List Token) (w : Word) (text : Text) (fresh : Bool) (c : Char) :
    Option Lexer :=
  if c = '"' then some ⟨tokens,.word (if fresh then w++[.quoted text] else flush w text)⟩
  else if c = '$' then some ⟨tokens,.dollar true (flush w text)⟩
  else if c = '\\' then some ⟨tokens,.doubleEscape w text fresh⟩
  else if c = '\x60' then none
  else some ⟨tokens,.double w (text++[c]) fresh⟩

/-- Behind a parameter the quotes it stood in go on. -/
def resume (quoted : Bool) (w : Word) : Mode := if quoted then .double w [] false else .word w

def afterParameter (tokens : List Token) (quoted : Bool) (w : Word) (c : Char) : Option Lexer :=
  if quoted then inDouble tokens w [] false c else inWord tokens w c

def readBrace (read : Text) : Option Parameter :=
  match splitOnce '+' read with
  | none => if isName read then some (.value read) else none
  | some (name, word) => if isName name then some (.alternative name word) else none

def inDollar (tokens : List Token) (quoted : Bool) (w : Word) (c : Char) : Option Lexer :=
  if c = '\x7b' then some ⟨tokens,.brace quoted w []⟩
  else if c = '@' then some ⟨tokens,resume quoted (w++[.param quoted .all])⟩
  else if c = '?' then some ⟨tokens,resume quoted (w++[.param quoted .status])⟩
  else if c = '!' then some ⟨tokens,resume quoted (w++[.param quoted .job])⟩
  else if isNameStart c then some ⟨tokens,.name quoted w [c]⟩
  else if c.isDigit || ['*','#','-','$','(','\''].contains c then none
  else if quoted then inDouble tokens w ['$'] false c
  else inWord tokens (w++[.plain '$']) c

/-- One character, by the mode of the lexer. -/
def lexStep (l : Lexer) (c : Char) : Option Lexer :=
  match l.mode with
  | .between => atStart l.tokens c
  | .word w => inWord l.tokens w c
  | .escape w =>
    if c = '\n' then some ⟨l.tokens,.word w⟩ else some ⟨l.tokens,.word (w++[.quoted [c]])⟩
  | .single w text =>
    if c = '\'' then some ⟨l.tokens,.word (w++[.quoted text])⟩
    else some ⟨l.tokens,.single w (text++[c])⟩
  | .double w text fresh => inDouble l.tokens w text fresh c
  | .doubleEscape w text fresh =>
    if c = '\n' then some ⟨l.tokens,.double w text fresh⟩
    else if ['$','\x60','"','\\'].contains c then some ⟨l.tokens,.double w (text++[c]) fresh⟩
    else some ⟨l.tokens,.double w (text++['\\',c]) fresh⟩
  | .dollar quoted w => inDollar l.tokens quoted w c
  | .name quoted w read =>
    if isNameChar c then some ⟨l.tokens,.name quoted w (read++[c])⟩
    else afterParameter l.tokens quoted (w++[.param quoted (.value read)]) c
  | .brace quoted w read =>
    if c = '\x7d' then
      (readBrace read).map fun p => ⟨l.tokens,resume quoted (w++[.param quoted p])⟩
    else if ['\'','"','\\','$','\x60','\n'].contains c then none
    else some ⟨l.tokens,.brace quoted w (read++[c])⟩
  | .ampersand =>
    if c = '&' then some ⟨l.tokens++[.op .andIf],.between⟩
    else atStart (l.tokens++[.op .ampersand]) c
  | .bar => if c = '|' then some ⟨l.tokens++[.op .orIf],.between⟩ else none
  | .comment => if c = '\n' then some ⟨l.tokens++[.op .newline],.between⟩ else some l

/-- At the end of the text no quotes or braces may be open. -/
def Lexer.finish (l : Lexer) : Option (List Token) :=
  match l.mode with
  | .between => some l.tokens
  | .comment => some l.tokens
  | .word w => some (l.tokens++[.word w])
  | .name false w read => some (l.tokens++[.word (w++[.param false (.value read)])])
  | .dollar false w => some (l.tokens++[.word (w++[.plain '$'])])
  | .ampersand => some (l.tokens++[.op .ampersand])
  | _ => none

/-- A machine that takes one character at a time. -/
def lexFrom (l : Lexer) (s : Text) : Option Lexer := s.foldlM lexStep l

def lex (s : Text) : Option (List Token) := (lexFrom ⟨[],.between⟩ s).bind Lexer.finish

/-- Tokens read so far are only added to. -/
def Lexer.after (tokens : List Token) (l : Lexer) : Lexer := ⟨tokens++l.tokens,l.mode⟩

section
variable (ts : List Token)

theorem map_after_append (t : List Token) (x : Option Lexer) :
    x.map (Lexer.after (ts++t)) = (x.map (Lexer.after t)).map (Lexer.after ts) := by
  cases x <;> simp [Lexer.after]

theorem delimiter_after (t : List Token) (c : Char) :
    delimiter (ts++t) c = (delimiter t c).map (.after ts) := by
  unfold delimiter
  split_ifs <;> simp [Lexer.after]

theorem inWord_after (w : Word) (c : Char) : inWord ts w c = (inWord [] w c).map (.after ts) := by
  unfold inWord
  rw [delimiter_after,nil_append]
  cases delimiter [.word w] c with
  | some l => rfl
  | none =>
    simp only [Option.map_none]
    split_ifs <;> simp [Lexer.after]

theorem atStart_after (t : List Token) (c : Char) :
    atStart (ts++t) c = (atStart t c).map (.after ts) := by
  unfold atStart
  rw [delimiter_after]
  cases delimiter t c with
  | some l => rfl
  | none =>
    simp only [Option.map_none]
    split_ifs
    · rfl
    · rw [inWord_after,inWord_after t,map_after_append]

theorem inDouble_after (w : Word) (t : Text) (fresh : Bool) (c : Char) :
    inDouble ts w t fresh c = (inDouble [] w t fresh c).map (.after ts) := by
  unfold inDouble
  split_ifs <;> simp [Lexer.after]

theorem inDollar_after (qt : Bool) (w : Word) (c : Char) :
    inDollar ts qt w c = (inDollar [] qt w c).map (.after ts) := by
  unfold inDollar
  rw [inDouble_after,inWord_after]
  split_ifs <;> simp [Lexer.after]

theorem afterParameter_after (qt : Bool) (w : Word) (c : Char) :
    afterParameter ts qt w c = (afterParameter [] qt w c).map (.after ts) := by
  unfold afterParameter
  rw [inDouble_after,inWord_after]
  split_ifs <;> rfl

theorem lexStep_after (t : List Token) (m : Mode) (c : Char) :
    lexStep ⟨ts++t,m⟩ c = (lexStep ⟨t,m⟩ c).map (.after ts) := by
  cases m with
  | between => exact atStart_after ts t c
  | word w => simp only [lexStep]; rw [inWord_after,map_after_append,← inWord_after t]
  | escape w | single w tx => simp only [lexStep]; split_ifs <;> rfl
  | double w tx fresh =>
    simp only [lexStep]
    rw [inDouble_after,map_after_append,← inDouble_after t]
  | doubleEscape w tx fresh => simp only [lexStep]; split_ifs <;> rfl
  | dollar qt w =>
    simp only [lexStep]
    rw [inDollar_after,map_after_append,← inDollar_after t]
  | name qt w rd =>
    simp only [lexStep]
    split_ifs
    · rfl
    · rw [afterParameter_after,map_after_append,← afterParameter_after t]
  | brace qt w rd =>
    simp only [lexStep]
    split_ifs
    · simp [Function.comp_def,Lexer.after]
    all_goals rfl
  | ampersand =>
    simp only [lexStep]
    split_ifs
    · simp [Lexer.after]
    · rw [append_assoc,atStart_after]
  | bar | comment => simp only [lexStep]; split_ifs <;> simp [Lexer.after]

theorem lexFrom_after (t : List Token) (m : Mode) (s : Text) :
    lexFrom ⟨ts++t,m⟩ s = (lexFrom ⟨t,m⟩ s).map (.after ts) := by
  induction s generalizing t m with
  | nil => rfl
  | cons c s ih =>
    simp only [lexFrom,foldlM_cons,lexStep_after]
    cases lexStep ⟨t,m⟩ c with
    | none => rfl
    | some l => exact ih l.tokens l.mode

end

/-- Between two modes the text is read as the tokens. -/
def Lexes (m : Mode) (s : Text) (tokens : List Token) (m' : Mode) : Prop :=
  lexFrom ⟨[],m⟩ s = some ⟨tokens,m'⟩

variable {s : Text}

theorem Lexes.append {m m' m'' : Mode} {s' : Text} {t t' : List Token} (h : Lexes m s t m')
    (h' : Lexes m' s' t' m'') : Lexes m (s++s') (t++t') m'' := by
  unfold Lexes at *
  have ha := lexFrom_after t [] m' s'
  rw [append_nil,h'] at ha
  rw [lexFrom,foldlM_append]
  exact (congrArg (· >>= fun l => lexFrom l s') h).trans ha

theorem Lexes.cons {m m' m'' : Mode} {c : Char} {s : Text} {t t' : List Token}
    (h : lexStep ⟨[],m⟩ c = some ⟨t,m'⟩) (h' : Lexes m' s t' m'') :
    Lexes m (c::s) (t++t') m'' := by
  have ho : Lexes m [c] t m' := by
    simp only [Lexes,lexFrom,foldlM_cons,foldlM_nil,h]
    rfl
  exact ho.append h'

def specials : List Char :=
  ['<','>','\x60','*','?','~',' ','\t','\n',';','(',')','&','|','\'','"','\\','$', '[']

/-- A character that stands for itself anywhere in a word. -/
def isPlain (c : Char) : Bool := !specials.contains c

variable {c : Char}

theorem isPlain_of_isNameChar (h : isNameChar c = true) : isPlain c = true := by
  have hs : ∀ d ∈ specials, isNameChar d = false := all_iff_forall_prop.mp (by decide)
  by_contra hp
  simp only [isPlain,contains_eq_mem,Bool.not_eq_true',decide_eq_false_iff_not,not_not] at hp
  rw [hs c hp] at h
  cases h

theorem delimiter_plain (h : isPlain c = true) (ts : List Token) : delimiter ts c = none := by
  simp only [isPlain,specials,contains_eq_mem,mem_cons,not_mem_nil,or_false,
    Bool.not_eq_true',decide_eq_false_iff_not,not_or] at h
  simp [delimiter,h]

theorem inWord_plain (h : isPlain c = true) (ts : List Token) (w : Word) :
    inWord ts w c = some ⟨ts,.word (w++[.plain c])⟩ := by
  rw [inWord,delimiter_plain h]
  simp only [isPlain,specials,contains_eq_mem,mem_cons,not_mem_nil,or_false,
    Bool.not_eq_true',decide_eq_false_iff_not,not_or] at h
  simp [isRefused,h]

theorem lexes_plain (h : ∀ c ∈ s, isPlain c = true) (w : Word) :
    Lexes (.word w) s [] (.word (w++s.map .plain)) := by
  induction s generalizing w with
  | nil => simp [Lexes,lexFrom]
  | cons c s ih =>
    have hs : lexStep ⟨[],.word w⟩ c = some ⟨[],.word (w++[.plain c])⟩ :=
      inWord_plain (h c mem_cons_self) [] w
    have hr := ih (forall_mem_cons.mp h).2 (w++[.plain c])
    simpa using Lexes.cons hs hr

/-- At the start of a word a number sign would begin a comment. -/
theorem lexes_plain_start (h : ∀ d ∈ c::s, isPlain d = true) (hc : c ≠ '#') :
    Lexes .between (c::s) [] (.word ((c::s).map .plain)) := by
  have hp := h c mem_cons_self
  have hs : lexStep ⟨[],.between⟩ c = some ⟨[],.word [.plain c]⟩ := by
    simp only [lexStep,atStart,delimiter_plain hp,if_neg hc]
    exact inWord_plain hp [] []
  exact Lexes.cons hs (lexes_plain (forall_mem_cons.mp h).2 [.plain c])

theorem lex_of_lexes {ts all : List Token} {m : Mode} (h : Lexes .between s ts m)
    (hm : Lexer.finish ⟨ts,m⟩ = some all) : lex s = some all := by
  rw [lex,h]
  exact hm

inductive Command where
  | skip
  | simple (assignments : List (Text × Word)) (words : List Word)
  | seq (first second : Command)
  | job (command : Command)
  | andThen (first second : Command)
  | orElse (first second : Command)
  | subshell (command : Command)
  | cond (test yes no : Command)
  | forEach (name : Text) (words : List Word) (body : Command)
deriving DecidableEq

/-- The text of a word without quoting and parameters. -/
def literal : Word → Option Text
  | [] => some []
  | .plain c::w => (literal w).map (c :: ·)
  | _::_ => none

/-- `name=word`, with an unquoted name and equals sign. -/
def assignmentFrom (name : Text) : Word → Option (Text × Word)
  | .plain c::w =>
    if c = '=' then if isName name then some (name, w) else none
    else assignmentFrom (name++[c]) w
  | _ => none

def assignment (w : Word) : Option (Text × Word) := assignmentFrom [] w

theorem assignmentFrom_name {rd n : Text} (w : Word) (hn : '=' ∉ n) (h : isName (rd++n) = true) :
    assignmentFrom rd (n.map .plain ++ .plain '='::w) = some (rd++n, w) := by
  induction n generalizing rd with
  | nil => simpa [assignmentFrom] using h
  | cons c n ih =>
    simp only [mem_cons,not_or] at hn
    rw [map_cons,cons_append,assignmentFrom,if_neg (Ne.symm hn.1)]
    have hr := @ih (rd++[c]) hn.2 (by simpa using h)
    simpa using hr

/-- A name, an equals sign and any word are an assignment. -/
theorem assignment_name {n : Text} (w : Word) (h : isName n = true) :
    assignment (n.map .plain ++ .plain '='::w) = some (n, w) := by
  refine assignmentFrom_name w (fun hc => ?_) h
  exact absurd (isNameChar_of_mem h hc) (by decide)

variable {w : Word} {a : Text × Word}

theorem equals_mem_literal {rd : Text} {t : Text} (h : assignmentFrom rd w = some a)
    (ht : literal w = some t) : '=' ∈ t := by
  induction w generalizing rd t with
  | nil => cases h
  | cons pc w ih =>
    cases pc with
    | plain c =>
      simp only [literal,Option.map_eq_some_iff] at ht
      obtain ⟨u,hu,rfl⟩ := ht
      rw [assignmentFrom] at h
      split_ifs at h with hc
      · exact hc ▸ mem_cons_self
      · exact mem_cons_of_mem _ (ih h hu)
    | quoted text | param quoted p => cases h

inductive Keyword where
  | beginIf | thenPart | elsePart | endIf | beginFor | endFor | refused

/-- Words that are not commands when they stand first. -/
def keyword (w : Word) : Option Keyword :=
  match literal w with
  | none => none
  | some t =>
    if t = "if" then some .beginIf
    else if t = "then" then some .thenPart
    else if t = "else" then some .elsePart
    else if t = "fi" then some .endIf
    else if t = "for" then some .beginFor
    else if t = "done" then some .endFor
    else if ["in","do","elif","while","until","case","esac","!","\x7b","\x7d"].any
      fun k => t == k.toList then some .refused
    else none

theorem keyword_of_assignment (h : assignment w = some a) : keyword w = none := by
  unfold keyword
  cases ht : literal w with
  | none => rfl
  | some t =>
    have hm := equals_mem_literal h ht
    have hne : ∀ k : String, '=' ∉ k.toList → t ≠ k.toList := by
      rintro k hk rfl
      exact hk hm
    simp only [any_cons,any_nil,beq_false_of_ne,ne_eq,not_false_eq_true,Bool.or_self,
      hne "if" (by decide),hne "then" (by decide),hne "else" (by decide),hne "fi" (by decide),
      hne "for" (by decide),hne "done" (by decide),hne "in" (by decide),hne "do" (by decide),
      hne "elif" (by decide),hne "while" (by decide),hne "until" (by decide),
      hne "case" (by decide),hne "esac" (by decide),hne "!" (by decide),
      hne "\x7b" (by decide),hne "\x7d" (by decide),if_false,Bool.false_eq_true]

inductive Current where
  | empty
  | simple (assignments : List (Text × Word)) (words : List Word)
  | compound (command : Command)
deriving DecidableEq

/-- A list under construction: its complete part, the open and-or list with the
connector behind it, and the command being read. -/
structure Draft where
  complete : Option Command := none
  chain : Option (Command × Bool) := none
  current : Current := .empty

def Current.command : Current → Option Command
  | .empty => none
  | .simple assignments words => some (.simple assignments words)
  | .compound command => some command

def join : Option (Command × Bool) → Command → Command
  | none, c => c
  | some (l, true), c => .andThen l c
  | some (l, false), c => .orElse l c

def append : Option Command → Command → Command
  | none, c => c
  | some l, c => .seq l c

def Draft.andOr (d : Draft) : Option Command := d.current.command.map (join d.chain)

def Draft.connect (d : Draft) (isAnd : Bool) : Option Draft :=
  d.andOr.map fun c => ⟨d.complete,some (c, isAnd),.empty⟩

def Draft.terminate (d : Draft) (wrap : Command → Command) : Option Draft :=
  d.andOr.map fun c => ⟨some (append d.complete (wrap c)),none,.empty⟩

/-- The list, whether or not its last command was terminated. -/
def Draft.close (d : Draft) : Option Command :=
  match d.current, d.chain with
  | .empty, none => d.complete
  | .empty, some _ => none
  | _, _ => (d.terminate id).bind (·.complete)

def Draft.push (d : Draft) (w : Word) : Option Draft :=
  match d.current with
  | .compound _ => none
  | .empty =>
    match assignment w with
    | some a => some { d with current := .simple [a] [] }
    | none => some { d with current := .simple [] [w] }
  | .simple assignments [] =>
    match assignment w with
    | some a => some { d with current := .simple (assignments++[a]) [] }
    | none => some { d with current := .simple assignments [w] }
  | .simple assignments words => some { d with current := .simple assignments (words++[w]) }

/-- What an open list is part of. -/
inductive Frame where
  | subshell | test
  | yes (test : Command)
  | no (test yes : Command)
  | body (name : Text) (words : List Word)

/-- How much of `for name in words; do` has been read. -/
inductive Header where
  | start
  | named (name : Text)
  | listed (name : Text) (words : List Word)
  | ended (name : Text) (words : List Word)

structure Parser where
  stack : List (Frame × Draft) := []
  draft : Draft := {}
  header : Option Header := none

def Parser.enter (p : Parser) (frame : Frame) : Parser := ⟨(frame, p.draft)::p.stack,{},none⟩

/-- The open list becomes a part of the command around it. -/
def Parser.leave (p : Parser) (wrap : Frame → Command → Option Command) : Option Parser :=
  match p.stack with
  | [] => none
  | (frame, outer)::stack => do
    let command ← wrap frame (← p.draft.close)
    return ⟨stack,{ outer with current := .compound command },none⟩

/-- The open list is complete and the next part of the same command begins. -/
def Parser.turn (p : Parser) (next : Frame → Command → Option Frame) : Option Parser :=
  match p.stack with
  | [] => none
  | (frame, outer)::stack => do
    let frame ← next frame (← p.draft.close)
    return ⟨(frame, outer)::stack,{},none⟩

def Parser.keyword (p : Parser) : Keyword → Option Parser
  | .beginIf => some (p.enter .test)
  | .thenPart => p.turn fun frame c => match frame with
      | .test => some (.yes c)
      | _ => none
  | .elsePart => p.turn fun frame c => match frame with
      | .yes test => some (.no test c)
      | _ => none
  | .endIf => p.leave fun frame c => match frame with
      | .yes test => some (.cond test c .skip)
      | .no test yes => some (.cond test yes c)
      | _ => none
  | .beginFor => some { p with header := some .start }
  | .endFor => p.leave fun frame c => match frame with
      | .body name words => some (.forEach name words c)
      | _ => none
  | .refused => none

def Parser.headerStep (p : Parser) (h : Header) (t : Token) : Option Parser :=
  match h, t with
  | .start, .word w =>
    (literal w).bind fun name =>
      if isName name then some { p with header := some (.named name) } else none
  | .named name, .word w =>
    if literal w = some "in".toList then some { p with header := some (.listed name []) } else none
  | .listed name words, .word w => some { p with header := some (.listed name (words++[w])) }
  | .listed name words, .op o =>
    if o = .semicolon ∨ o = .newline then some { p with header := some (.ended name words) }
    else none
  | .ended name words, .word w =>
    if literal w = some "do".toList then some (p.enter (.body name words)) else none
  | .ended _ _, .op .newline => some p
  | _, _ => none

def Parser.word (p : Parser) (w : Word) : Option Parser :=
  match p.draft.current, Shell.keyword w with
  | .empty, some k => p.keyword k
  | _, _ => (p.draft.push w).map fun d => { p with draft := d }

def Parser.operator (p : Parser) : Operator → Option Parser
  | .semicolon => (p.draft.terminate id).map fun d => { p with draft := d }
  | .ampersand => (p.draft.terminate .job).map fun d => { p with draft := d }
  | .andIf => (p.draft.connect true).map fun d => { p with draft := d }
  | .orIf => (p.draft.connect false).map fun d => { p with draft := d }
  | .newline =>
    if p.draft.current = .empty then some p
    else (p.draft.terminate id).map fun d => { p with draft := d }
  | .lparen => if p.draft.current = .empty then some (p.enter .subshell) else none
  | .rparen => p.leave fun frame c => match frame with
      | .subshell => some (.subshell c)
      | _ => none

def parseStep (p : Parser) (t : Token) : Option Parser :=
  match p.header, t with
  | some h, t => p.headerStep h t
  | none, .word w => p.word w
  | none, .op o => p.operator o

/-- A machine that takes one token at a time. -/
def parseFrom (p : Parser) (tokens : List Token) : Option Parser := tokens.foldlM parseStep p

def Parser.finish (p : Parser) : Option Command :=
  if p.stack.isEmpty && p.header.isNone then p.draft.close else none

def parse (tokens : List Token) : Option Command := (parseFrom {} tokens).bind Parser.finish

/-- Assignments read so far, before the command's first word. -/
def begun (assignments : List (Text × Word)) : Current :=
  if assignments = [] then .empty else .simple assignments []

section
variable (stack : List (Frame × Draft)) (comp : Option Command)
  (chain : Option (Command × Bool))

theorem parseStep_assignment (asg : List (Text × Word)) (h : assignment w = some a) :
    parseStep ⟨stack,⟨comp,chain,begun asg⟩,none⟩ (.word w) =
      some ⟨stack,⟨comp,chain,begun (asg++[a])⟩,none⟩ := by
  have hw := keyword_of_assignment h
  cases asg with
  | nil => simp [parseStep,Parser.word,begun,hw,Draft.push,h]
  | cons b xs => simp [parseStep,Parser.word,begun,Draft.push,h]

theorem parseStep_first (asg : List (Text × Word)) (h : assignment w = none)
    (hw : keyword w = none) :
    parseStep ⟨stack,⟨comp,chain,begun asg⟩,none⟩ (.word w) =
      some ⟨stack,⟨comp,chain,.simple asg [w]⟩,none⟩ := by
  cases asg with
  | nil => simp [parseStep,Parser.word,begun,hw,Draft.push,h]
  | cons b xs => simp [parseStep,Parser.word,begun,Draft.push,h]

theorem parseFrom_assignments (asg : List (Text × Word)) {words : List Word}
    {more : List (Text × Word)} (h : List.Forall₂ (fun w a => assignment w = some a) words more) :
    parseFrom ⟨stack,⟨comp,chain,begun asg⟩,none⟩ (words.map .word) =
      some ⟨stack,⟨comp,chain,begun (asg++more)⟩,none⟩ := by
  induction h generalizing asg with
  | nil => simp [parseFrom]
  | @cons w a words more hw hr ih =>
    rw [parseFrom,map_cons,foldlM_cons,parseStep_assignment _ _ _ _ hw]
    simpa [parseFrom] using ih (asg++[a])

end

theorem parseFrom_append (p : Parser) (a b : List Token) :
    parseFrom p (a++b) = (parseFrom p a).bind fun q => parseFrom q b :=
  foldlM_append

def readScript (s : Text) : Option Command := (lex s).bind parse

end Cdenv.Shell
