import Cdenv.LifecycleScript

/-!
# What a lifecycle script runs

The script of a group is run by a shell that begins with the environment of the container. Each
process should see that environment. The shell however keeps the text it gathers, the ids of the
jobs and their status in variables of the same name space, and assigns them before it starts a
process.
-/
namespace Cdenv.LifecycleRun
open TextScan Fallible Shell ShellQuoting Substitution LifecycleScript List

section
variable (env : OrderedMap Text Text)

/-- What a process should be started with. -/
def argv : LifecycleProcess → List Text
  | .shell value => ["/bin/sh","-c",value.resolve env]
  | .exec arguments => arguments.map (·.resolve env)

/-- Names the state has the environment's values of. -/
def Reads (s : State) (names : List Text) : Prop :=
  ∀ name ∈ names, name ≠ v ∧ s.lookup name = env.get? name

end

def gathered (s : State) (value : Text) (args : List Text) : State :=
  { s with settings := assign s.settings v value, positional := args, status := 0 }

theorem lookup_gathered (s : State) (val : Text) (args : List Text) (n : Text) :
    (gathered s val args).lookup n = if v = n then some val else s.lookup n :=
  lookup_set s v val n

variable {s : State}

theorem Reads.gathered {env : OrderedMap Text Text} {names : List Text} (h : Reads env s names)
    (v : Text) (args : List Text) : Reads env (gathered s v args) names := by
  intro n hn
  refine ⟨(h n hn).1,?_⟩
  rw [lookup_gathered,if_neg (h n hn).1.symm,(h n hn).2]

variable {text : Text}

section
variable (wd : World) {env : OrderedMap Text Text}
variable {s : State}

section

variable (hov : s.quit = false)
include hov

end

variable {p : LifecycleProcess}

end

variable {l : List Started}

section
variable (wd : World) {env : OrderedMap Text Text}

end

section
variable (wd : World) {env : OrderedMap Text Text} {settings : Text → Option Setting}

end

end Cdenv.LifecycleRun
