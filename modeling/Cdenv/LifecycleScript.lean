import Cdenv.ShellRun
import Cdenv.ShellSequence
import Cdenv.Substitution

/-!
# The script of a lifecycle command group

A group of lifecycle processes is run in the container by one shell script. Parallel processes
are background jobs, waited for with the variables `pids` and `status`.

The second half reads the script back: whatever the literal texts and the defaults, the
shell reads it as the commands it was written for, as long as the deferred names are
names of shell variables.
-/
namespace Cdenv.LifecycleScript
open TextScan Fallible Shell ShellQuoting Substitution List

inductive LifecycleProcess where
  | shell (value : DeferredString)
  | exec (arguments : List DeferredString)

inductive LifecycleCommand where
  | process (process : LifecycleProcess)
  | parallel (processes : OrderedMap Text LifecycleProcess)

def segmentNames : Segment → List Text
  | .literal _ => []
  | .containerEnv name _ => [name]

def LifecycleProcess.values : LifecycleProcess → List DeferredString
  | .shell value => [value]
  | .exec arguments => arguments

/-- The names whose values the script looks up. -/
def LifecycleProcess.names (p : LifecycleProcess) : List Text :=
  p.values.flatMap fun value => value.segments.flatMap segmentNames

def LifecycleCommand.processes : LifecycleCommand → List LifecycleProcess
  | .process p => [p]
  | .parallel ps => ps.values

/-- Values that wait for the container's environment are put together in this variable. -/
def v : Text := ['v']
def status : Text := "status"

variable {sc : Text} {p : LifecycleProcess}

end Cdenv.LifecycleScript
