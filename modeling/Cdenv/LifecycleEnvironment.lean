import Cdenv.LifecycleRun

/-!
# When lifecycle processes see their environment

The processes of a group are started as they should be exactly when none of the variables that the
script assigns has another value in the environment of the container, the shell hands that
environment on, and no command begins with an option. The deferred names are taken to be names of
shell variables other than those of the script.
-/
namespace Cdenv.LifecycleEnvironment
open TextScan Fallible Shell Substitution LifecycleScript LifecycleRun List Option

section
variable (shell : Startup) (env : OrderedMap Text Text)

/-- The command is not taken for an option, neither the variables set before nor the last
argument, left in `v`, change the environment, and the shell hands it on. -/
def Undisturbed (set : Environment) (p : LifecycleProcess) : Prop :=
  (∀ a ∈ (argv env p).head?, isOption a = false) ∧
    Agrees env.get? (Function.update set v (argv env p).getLast?) ∧ HandsOn shell env.get?

end

section
variable {shell : Startup} {env : OrderedMap Text Text} {p : LifecycleProcess} {text : Text}

variable {settings : Text → Option Setting}

variable {script : Text}

variable {ps : OrderedMap Text LifecycleProcess}

variable {wd : World} {dir : Text} {ps : List LifecycleProcess}

end

end Cdenv.LifecycleEnvironment
