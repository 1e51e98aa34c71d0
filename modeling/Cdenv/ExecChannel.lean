import Mathlib.Data.List.Basic

/-!
# The input of a command's SSH channel

The channel of a command has a task that feeds the command's standard input; through it the
session learns that the client is gone. Messages that only answer a request, or resize a
terminal, change nothing and are left out.
-/
namespace Cdenv.ExecChannel
open List

/-- What becomes of a write to the child's standard input: the child may close it, or leave it
full for as long as it runs. -/
inductive WriteOutcome where
  | written | failed | stalled
deriving DecidableEq

inductive ChannelMsg where
  | data (outcome : WriteOutcome)
  | eof | close | signal

/-- Where `copy_channel_input` stands; `stdin` says whether the child's input is still open. -/
inductive Input where
  | waiting (stdin : Bool)
  | writing
  | returned (disconnected : Bool)
deriving DecidableEq

def Input.receive : Input → ChannelMsg → Input
  | .waiting true, .data .written => .waiting true
  | .waiting true, .data .failed => .returned false
  | .waiting true, .data .stalled => .writing
  | .waiting false, .data _ => .returned false
  | .waiting _, .eof => .waiting false
  | .waiting _, .close => .returned true
  | input, _ => input

def Input.finish : Input → Input
  | .waiting _ => .returned true
  | input => input

/-- The messages of the client, one after the other. -/
def copyChannelInput (messages : List ChannelMsg) : Input :=
  messages.foldl Input.receive (.waiting true)

inductive Signal where
  | hangup | terminate | kill
deriving DecidableEq

def terminateProcessGroup : List Signal := [.hangup,.terminate,.kill]

/-- The signals of the session to its process group while the child goes on running: a task
that returns without a disconnect drops its sender, and the session waits for the child. -/
def sessionSignals : Input → List Signal
  | .returned true => terminateProcessGroup
  | _ => []

/-- No data comes after an end-of-file, and every write ends well; up to a close. -/
def Unbroken (stdin : Bool) : List ChannelMsg → Prop
  | [] => True
  | .data outcome::rest => stdin = true ∧ outcome = .written ∧ Unbroken stdin rest
  | .eof::rest => Unbroken false rest
  | .close::_ => True
  | .signal::rest => Unbroken stdin rest

/-- A task that has returned, or is stuck, looks at no further message. -/
theorem foldl_receive {input : Input} (h : ∀ msg, input.receive msg = input)
    (msgs : List ChannelMsg) : msgs.foldl Input.receive input = input := by
  induction msgs with
  | nil => rfl
  | cons msg xs ih => rw [foldl_cons,h,ih]

theorem finish_iff (stdin : Bool) (messages : List ChannelMsg) :
    (messages.foldl Input.receive (.waiting stdin)).finish = .returned true ↔
      Unbroken stdin messages := by
  induction messages generalizing stdin with
  | nil => simp [Input.finish,Unbroken]
  | cons msg xs ih =>
    rw [foldl_cons]
    cases msg with
    | data out =>
      cases stdin <;> cases out
      case true.written => simpa [Unbroken,Input.receive] using ih true
      all_goals
        rw [Input.receive,foldl_receive fun _ => rfl]
        simp [Input.finish,Unbroken]
    | eof => cases stdin <;> exact ih false
    | close =>
      rw [show Input.receive (.waiting stdin) .close = .returned true by cases stdin <;> rfl,
        foldl_receive fun _ => rfl]
      simp [Input.finish,Unbroken]
    | signal => cases stdin <;> exact ih _

theorem receive_close (inp : Input) : inp.receive .close = inp.finish := by
  cases inp with
  | waiting stdin => cases stdin <;> rfl
  | writing | returned disconnected => rfl

/-- A close, or the end of the messages, while the child runs makes the session terminate the
process group exactly if no data came after an end-of-file and every write ended well. -/
theorem terminates_iff (messages : List ChannelMsg) :
    (sessionSignals ((copyChannelInput messages).receive .close) = terminateProcessGroup ∧
      sessionSignals (copyChannelInput messages).finish = terminateProcessGroup) ↔
      Unbroken true messages := by
  have hs : ∀ inp, sessionSignals inp = terminateProcessGroup ↔ inp = .returned true := by
    intro inp
    unfold sessionSignals
    split <;> simp_all [terminateProcessGroup]
  rw [receive_close,and_self,hs]
  exact finish_iff true messages

/-- The child closes its input and runs on; the client's close goes unnoticed. -/
theorem close_unnoticed :
    sessionSignals ((copyChannelInput [.data .failed]).receive .close) = [] := rfl

end Cdenv.ExecChannel
