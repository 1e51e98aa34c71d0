import Cdenv.ShellRun

/-!
# Lists of shell commands

Terminated commands are read one after the other onto the open list, wherever that
list stands, and are run one after the other. A script that is written in pieces is
read and run by its pieces.

The last part says what the processes of a script see: the environment the shell began
with, as far as no variable of it has been set to something else.
-/
namespace Cdenv.Shell
open TextScan Fallible List Option

def appendAll (complete : Option Command) (commands : List Command) : Option Command :=
  commands.foldl (fun list c => some (append list c)) complete

/-- The commands as one list; without any it is the empty command. -/
def listCommand : List Command → Command
  | [] => .skip
  | c::commands => commands.foldl .seq c

theorem appendAll_some (c : Command) (cmds : List Command) :
    appendAll (some c) cmds = some (cmds.foldl .seq c) := by
  induction cmds generalizing c with
  | nil => rfl
  | cons d cmds ih => exact ih (.seq c d)

variable {cmds : List Command}

theorem appendAll_none (h : cmds ≠ []) : appendAll none cmds = some (listCommand cmds) := by
  cases cmds with
  | nil => exact absurd rfl h
  | cons c cmds => exact appendAll_some c cmds

theorem appendAll_append (comp : Option Command) (cs ds : List Command) :
    appendAll comp (cs++ds) = appendAll (appendAll comp cs) ds :=
  foldl_append

/-- Tokens that add the commands to the open list, whatever is around it. -/
def ParsesAs (tokens : List Token) (commands : List Command) : Prop :=
  ∀ stack complete, parseFrom ⟨stack,⟨complete,none,.empty⟩,none⟩ tokens =
    some ⟨stack,⟨appendAll complete commands,none,.empty⟩,none⟩

theorem ParsesAs.append {a b : List Token} {cs ds : List Command} (ha : ParsesAs a cs)
    (hb : ParsesAs b ds) : ParsesAs (a++b) (cs++ds) := by
  intro stk comp
  rw [parseFrom_append,ha stk comp,bind_some,hb,appendAll_append]

theorem ParsesAs.flatMap {α : Type} {ts : α → List Token} {cmds : α → List Command}
    {l : List α} (h : ∀ x ∈ l, ParsesAs (ts x) (cmds x)) :
    ParsesAs (l.flatMap ts) (l.flatMap cmds) := by
  induction l with
  | nil => exact fun _ _ => rfl
  | cons x l ih =>
    have hr := ih (forall_mem_cons.mp h).2
    exact (h x mem_cons_self).append hr

/-- Tokens that add the commands, the last of which need not be terminated. -/
def EndsAs (tokens : List Token) (commands : List Command) : Prop :=
  ∀ stack complete, ∃ draft, parseFrom ⟨stack,⟨complete,none,.empty⟩,none⟩ tokens =
    some ⟨stack,draft,none⟩ ∧ draft.close = appendAll complete commands

theorem ParsesAs.ends {a b : List Token} {cs ds : List Command} (ha : ParsesAs a cs)
    (hb : EndsAs b ds) : EndsAs (a++b) (cs++ds) := by
  intro stk comp
  obtain ⟨draft,hp,hc⟩ := hb stk (appendAll comp cs)
  refine ⟨draft,?_,?_⟩
  · rw [parseFrom_append,ha stk comp]
    exact hp
  · rw [hc,appendAll_append]

variable {ts : List Token}

theorem EndsAs.parse (h : EndsAs ts cmds) (hne : cmds ≠ []) :
    parse ts = some (listCommand cmds) := by
  obtain ⟨draft,hp,hc⟩ := h [] none
  rw [appendAll_none hne] at hc
  have hf := hp
  rw [Shell.parse,hf]
  exact hc

theorem EndsAs.job (h : EndsAs ts cmds) (hne : cmds ≠ []) :
    ParsesAs ([.op .lparen]++ts++[.op .rparen,.op .ampersand])
      [.job (.subshell (listCommand cmds))] := by
  intro stk comp
  obtain ⟨draft,hp,hc⟩ := h ((.subshell, ⟨comp,none,.empty⟩)::stk) none
  rw [appendAll_none hne] at hc
  have ho : parseFrom ⟨stk,⟨comp,none,.empty⟩,none⟩ [.op .lparen] =
      some ⟨(.subshell, ⟨comp,none,.empty⟩)::stk,{},none⟩ := rfl
  have hl : parseStep ⟨(.subshell, ⟨comp,none,.empty⟩)::stk,draft,none⟩ (.op .rparen) =
        some ⟨stk,⟨comp,none,.compound (.subshell (listCommand cmds))⟩,none⟩ := by
    simp [parseStep,Parser.operator,Parser.leave,hc]
  rw [append_assoc,parseFrom_append,ho,bind_some,parseFrom_append,hp,
    bind_some,parseFrom,foldlM_cons,hl]
  rfl

section
variable (world : World)

end

/-- The variables of a shell that began with the environment and has set some since: the
exported ones are those that it handed on and those that it always exports. -/
structure Shows (shell : Startup) (set env : Environment) (settings : Text → Option Setting) :
    Prop where
  own : ∀ name s, shell.own name = some s → (set name).isSome = true
  marked : ∀ name, ((settings name).map (·.exported)).getD false =
    ((shell.own name).any (·.exported) || shell.passes name && (env name).isSome)
  value : ∀ name, (settings name).map (·.value) =
    (set name).or (if shell.passes name then env name else none)

variable {sets : Text → Option Setting} {shell : Startup}

theorem Shows.assign {set env : Environment} (h : Shows shell set env sets) (nm value : Text) :
    Shows shell (Function.update set nm (some value)) env (assign sets nm value) where
  own n s hs := by
    by_cases hn : n = nm
    · subst hn
      simp
    · simpa [hn] using h.own n s hs
  marked n := by
    by_cases hn : n = nm
    · subst hn
      simpa [Shell.assign] using h.marked n
    · simpa [Shell.assign,hn] using h.marked n
  value n := by
    by_cases hn : n = nm
    · subst hn
      simp [Shell.assign]
    · simpa [Shell.assign,hn] using h.value n

/-- Two environments have no variable with different values. -/
def Agrees (a b : Environment) : Prop := ∀ name x y, a name = some x → b name = some y → x = y

/-- The shell hands on all of the environment, which has every variable that the shell
always exports. -/
structure HandsOn (shell : Startup) (env : Environment) : Prop where
  passes : ∀ name x, env name = some x → shell.passes name = true
  exports : ∀ name s, shell.own name = some s → s.exported = true → (env name).isSome = true

theorem Lexes.flatMap {α : Type} {t : α → Text} {ts : α → List Token} {l : List α}
    (h : ∀ x ∈ l, Lexes .between (t x) (ts x) .between) :
    Lexes .between (l.flatMap t) (l.flatMap ts) .between := by
  induction l with
  | nil => rfl
  | cons x l ih =>
    have hr := ih (forall_mem_cons.mp h).2
    exact (h x mem_cons_self).append hr

end Cdenv.Shell
