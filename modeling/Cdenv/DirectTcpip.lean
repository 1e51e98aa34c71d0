import Cdenv.EventRun
import Cdenv.TextScan

/-!
# Direct TCP channels of the agent's SSH server

A forwarding channel runs two copies, one in each direction, and closes when they are done.
The copy of the client's data takes a message from the channel and then waits until the target
has accepted all of it. The copy of the target's data is never aborted, so reading a chunk and
passing it on is one step.
-/
namespace Cdenv.DirectTcpip
open EventRun List

inductive ChannelMsg where
  | data (data : Bytes)
  | eof | close

/-- The bytes a client sends before its end-of-file. -/
def sent : List ChannelMsg → Bytes
  | .data data::rest => data++sent rest
  | _ => []

inductive Phase where
  | selecting | awaitingOutput | closed
deriving DecidableEq

/-- What both sides still send, what the input task has taken and not yet written, what has
arrived at either side, and which copies go on. -/
structure State where
  client : List ChannelMsg
  target : List Bytes
  (taken written delivered : Bytes)
  (input output : Bool)
  phase : Phase

/-- The bytes of the client that have not arrived. -/
def State.owed (s : State) : Bytes := s.taken++sent s.client

def start (client : List ChannelMsg) (target : List Bytes) : State :=
  ⟨client,target,[],[],[],true,true,.selecting⟩

inductive Event where
  /-- The input task takes a message, or finds the stream ended. -/
  | message
  /-- The target accepts the next bytes of what was taken. -/
  | accept (count : ℕ)
  /-- The output task copies a chunk, or finds that the target has finished. -/
  | chunk
  | inputDone | outputDone | outputAwaited

/-- The end of the target's output aborts the input task wherever it stands. -/
def step (s : State) : Event → Option State
  | .message =>
    if s.input = true ∧ s.taken = [] then
      match s.client with
      | .data data::rest => some { s with client := rest, taken := data }
      | _ => some { s with input := false }
    else none
  | .accept count =>
    if s.input then
      some { s with taken := s.taken.drop count, written := s.written++s.taken.take count }
    else none
  | .chunk =>
    if s.output then
      match s.target with
      | data::rest => some { s with target := rest, delivered := s.delivered++data }
      | [] => some { s with output := false }
    else none
  | .inputDone =>
    if s.phase = .selecting ∧ s.input = false then some { s with phase := .awaitingOutput }
    else none
  | .outputDone =>
    if s.phase = .selecting ∧ s.output = false then
      some { s with phase := .closed, input := false }
    else none
  | .outputAwaited =>
    if s.phase = .awaitingOutput ∧ s.output = false then some { s with phase := .closed }
    else none

def Complete (client : List ChannelMsg) (target : List Bytes) (s : State) : Prop :=
  s.written = sent client ∧ s.delivered = target.flatten

/-- Nothing is lost on the way; a copy that ended by itself has copied everything. -/
structure Copies (client : List ChannelMsg) (target : List Bytes) (s : State) : Prop where
  written : s.written++s.owed = sent client
  delivered : s.delivered++s.target.flatten = target.flatten
  input : s.input = false → s.phase ≠ .closed → s.owed = []
  output : s.output = false → s.target = []
  awaiting : s.phase = .awaitingOutput → s.input = false
  closed : s.phase = .closed → s.input = false ∧ s.output = false

variable {client : List ChannelMsg} {target : List Bytes} {s t : State} {events : List Event}

theorem sent_eq_nil {msgs : List ChannelMsg} (h : ∀ data rest, msgs ≠ .data data::rest) :
    sent msgs = [] := by
  unfold sent
  split
  · next data rest => exact (h data rest rfl).elim
  · rfl

theorem Copies.step {e : Event} (hs : Copies client target s) (ht : step s e = some t) :
    Copies client target t := by
  obtain ⟨hw,hd,hi,hou,ha,hcl⟩ := hs
  cases e with
  | message =>
    obtain ⟨⟨hg,hta⟩,ht⟩ := Option.ite_none_right_eq_some.mp ht
    split at ht
    · next data xs hc =>
      cases ht
      simp only [State.owed,hc,hta,sent,nil_append] at hw
      constructor <;> simp_all [State.owed]
    · next ho =>
      cases ht
      have hse := sent_eq_nil fun data rest hc => ho data rest hc
      constructor <;> simp_all [State.owed]
  | accept n =>
    obtain ⟨hg,⟨⟩⟩ := Option.ite_none_right_eq_some.mp ht
    have ho : s.taken.take n++(s.taken.drop n++sent s.client) = s.owed := by
      rw [← append_assoc,take_append_drop]
      rfl
    constructor <;> simp_all [State.owed]
  | chunk =>
    obtain ⟨-,ht⟩ := Option.ite_none_right_eq_some.mp ht
    split at ht <;> cases ht <;> constructor <;> simp_all [State.owed]
  | inputDone | outputDone | outputAwaited =>
    obtain ⟨⟨hp,hdo⟩,⟨⟩⟩ := Option.ite_none_right_eq_some.mp ht
    constructor <;> simp_all [State.owed]

theorem step_closed {e : Event} (hs : Copies client target s) (hp : s.phase = .closed) :
    step s e = none := by
  obtain ⟨hi,ho⟩ := hs.closed hp
  cases e <;> simp [step,hi,ho,hp]

/-- A step that closes the channel comes from either branch of the selection. -/
theorem step_closes {e : Event} (ht : step s e = some t) :
    e ≠ .outputDone ∧ (t.phase = .closed → s.phase = .closed) ∨ t.owed = s.owed ∧
      t.phase = .closed ∧ (e = .outputDone ∨ e ≠ .outputDone ∧ s.phase = .awaitingOutput) := by
  cases e with
  | message | chunk =>
    obtain ⟨-,ht⟩ := Option.ite_none_right_eq_some.mp ht
    split at ht <;> cases ht <;> exact .inl ⟨nofun,id⟩
  | accept n =>
    obtain ⟨-,⟨⟩⟩ := Option.ite_none_right_eq_some.mp ht
    exact .inl ⟨nofun,id⟩
  | inputDone | outputDone | outputAwaited =>
    obtain ⟨⟨hp,-⟩,⟨⟩⟩ := Option.ite_none_right_eq_some.mp ht
    simp [hp,State.owed]

/-- Nothing is owed when the channel closes. -/
theorem owed_eq_nil_iff (hs : Copies client target s) (ho : s.phase ≠ .closed)
    (h : run step s events = some t) (hco : t.phase = .closed) :
    t.owed = [] ↔ Along step (fun s e => e = .outputDone → s.owed = []) s events := by
  induction events generalizing s with
  | nil =>
    cases h
    exact absurd hco ho
  | cons e xs ih =>
    obtain ⟨u,hu,hr⟩ := run_cons.mp h
    have hc := hs.step hu
    simp only [Along,hu]
    rcases step_closes hu with ⟨he,hp⟩ | ⟨hcl,hp,hca⟩
    · rw [ih hc (fun h => ho (hp h)) hr]
      simp [he]
    · cases xs with
      | cons next xs =>
        rw [run,step_closed hc hp] at hr
        cases hr
      | nil =>
        cases hr
        rw [hcl]
        rcases hca with rfl | ⟨he,ha⟩
        · simp [Along]
        · simp [Along,he,hs.input (hs.awaiting ha) ho]

/-- A closed channel has passed on everything, exactly if the target's end was never acted upon
while data of the client was still to be read from the channel or to be written to the target. -/
theorem complete_iff (h : run step (start client target) events = some t)
    (hclosed : t.phase = .closed) :
    Complete client target t ↔ Along step (fun s event => event = .outputDone →
      s.taken = [] ∧ sent s.client = []) (start client target) events := by
  have hs : Copies client target (start client target) := by
    constructor <;> simp [start,State.owed]
  have ht := run_invariant (fun _ _ _ => Copies.step) hs h
  have hd : t.delivered = target.flatten := by
    simpa [ht.output (ht.closed hclosed).2] using ht.delivered
  have ho := owed_eq_nil_iff hs nofun h hclosed
  simp only [State.owed,append_eq_nil_iff] at ho
  rw [← ho,Complete,← ht.written]
  simp [hd,State.owed]

/-- The target finishes first, and what the client sends after that is dropped. -/
theorem late_request_lost : ∃ t, run step (start [.data [1],.eof] [[2]])
    [.chunk,.chunk,.outputDone] = some t ∧ t.phase = .closed ∧ ¬Complete [.data [1],.eof] [[2]] t :=
  ⟨⟨[.data [1],.eof],[],[],[],[2],false,false,.closed⟩,rfl,rfl,by simp [Complete,sent]⟩

/-- The target accepts one of two bytes at a time and finishes after it has them all. -/
theorem complete_accepted :
    Complete [.data [1,3],.eof] [[2]] ⟨[.eof],[],[],[1,3],[2],false,false,.closed⟩ :=
  (@complete_iff _ _ _ [.message,.accept 1,.chunk,.accept 1,.message,.chunk,.outputDone]
    rfl rfl).mpr ⟨nofun,nofun,nofun,nofun,nofun,nofun,fun _ => ⟨rfl,rfl⟩,trivial⟩

end Cdenv.DirectTcpip
