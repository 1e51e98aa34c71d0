import Cdenv.BrokerProtocol
import Cdenv.EventRun

/-!
# Reading frames from the transport

Both dispatch loops read with the same function, which takes the header's first byte, the
rest of the header and the payload in turn and keeps what it has in local buffers. Each
iteration of the loop starts it afresh beside the loop's other branches and drops it when
one of these completes first, with the bytes it had taken.

What the loop does with a frame it dispatches is the other modules' subject.
-/
namespace Cdenv.FrameReading
open Fallible BrokerProtocol List BrokerFrame

/-- The state of `read_frame` between two reads. -/
inductive ReadFrame where
  | first
  | header (bytes : Bytes) (short : bytes.length < brokerFrameHeaderBytes)
  | payload (head : Bytes) (kind : BrokerFrameKind) (streamId : UInt32) (length : ℕ)
      (bytes : Bytes) (parsed : BrokerFrame.parseHeader head = .ok (kind, streamId, length))
      (short : bytes.length < length)

inductive Progress where
  | pending (future : ReadFrame)
  | ready (result : Except BrokerProtocolError BrokerFrame)

namespace ReadFrame

def taken : ReadFrame → Bytes
  | .first => []
  | .header bytes _ => bytes
  | .payload head _ _ _ bytes _ _ => head++bytes

/-- Free bytes of the buffer that is being filled. -/
def wants : ReadFrame → ℕ
  | .first => 1
  | .header bytes _ => brokerFrameHeaderBytes - bytes.length
  | .payload _ _ _ length bytes _ _ => length - bytes.length

/-- A payload of no bytes is complete at once. -/
def readPayload (head : Bytes) (kind : BrokerFrameKind) (streamId : UInt32) (length : ℕ)
    (parsed : BrokerFrame.parseHeader head = .ok (kind, streamId, length)) (bytes : Bytes) :
    Progress :=
  if short : bytes.length < length then
    .pending (.payload head kind streamId length bytes parsed short)
  else .ready (BrokerFrame.new kind streamId bytes)

def readHeader (bytes : Bytes) : Progress :=
  if short : bytes.length < brokerFrameHeaderBytes then .pending (.header bytes short)
  else
    match parsed : BrokerFrame.parseHeader bytes with
    | .ok (kind, streamId, length) => readPayload bytes kind streamId length parsed []
    | .error error => .ready (.error error)

def advance (chunk : Bytes) : ReadFrame → Progress
  | .first => readHeader chunk
  | .header bytes _ => readHeader (bytes++chunk)
  | .payload head kind streamId length bytes parsed _ =>
    readPayload head kind streamId length parsed (bytes++chunk)

end ReadFrame

inductive InputError where
  | protocol (error : BrokerProtocolError)
  | io | timeout

/-- An event reads some bytes into the current buffer, lets another branch win the iteration or
ends the input. -/
inductive Event where
  | read (count : ℕ)
  | otherBranch | closed | failed | expired
deriving DecidableEq

/-- The peer's bytes are given in full at the start; what has not arrived is what no event has
read yet. -/
structure Input where
  wire : Bytes
  future : ReadFrame
  dispatched : List BrokerFrame
  ended : Option (Except InputError Unit)

namespace Input

def start (frames : List BrokerFrame) : Input :=
  ⟨frames.flatMap BrokerFrame.encode,.first,[],none⟩

/-- The end of the stream is the end of the loop between two frames and an error within
one, and so is a failed read. -/
def step (s : Input) (event : Event) : Option Input :=
  match s.ended, event with
  | some _, _ => none
  | none, .read count =>
    if 0 < count ∧ count ≤ s.future.wants ∧ count ≤ s.wire.length then
      let rest := s.wire.drop count
      match s.future.advance (s.wire.take count) with
      | .pending future => some { s with wire := rest, future }
      | .ready (.ok frame) =>
        some { s with wire := rest, future := .first, dispatched := s.dispatched++[frame] }
      | .ready (.error error) =>
        some { s with wire := rest, future := .first, ended := some (.error (.protocol error)) }
    else none
  | none, .otherBranch => some { s with future := .first }
  | none, .closed =>
    if s.wire = [] then
      match s.future with
      | .first => some { s with ended := some (.ok ()) }
      | _ => some { s with ended := some (.error (.protocol .truncated)) }
    else none
  | none, .failed =>
    match s.future with
    | .first => some { s with ended := some (.error .io) }
    | _ => some { s with ended := some (.error (.protocol .truncated)) }
  | none, .expired => some { s with ended := some (.error .timeout) }

end Input

/-- The frames dispatched so far are the first of those sent, and every byte sent is in
one of them, held by the reader or still to come. -/
structure Faithful (frames : List BrokerFrame) (s : Input) : Prop where
  dispatched : s.dispatched <+: frames
  bytes : s.dispatched.flatMap BrokerFrame.encode++(s.future.taken++s.wire) =
    frames.flatMap BrokerFrame.encode

namespace ReadFrame
variable {future next : ReadFrame} {chunk xs later : Bytes} {f : BrokerFrame}

theorem length_of_parseHeader {hd : Bytes} {r : BrokerFrameKind × UInt32 × ℕ}
    (h : BrokerFrame.parseHeader hd = .ok r) :
    hd.length = brokerFrameHeaderBytes := by
  unfold parseHeader at h
  split at h
  · rfl
  · cases h

variable {kind : BrokerFrameKind}

/-- What a read leaves pending has taken the bytes it was given. A frame it completes is
as long as all that was taken for it. -/
theorem length_readPayload {hd : Bytes} {sid : UInt32} {length : ℕ}
    (pd : BrokerFrame.parseHeader hd = .ok (kind, sid, length)) (bs : Bytes) :
    (∀ next, readPayload hd kind sid length pd bs = .pending next → next.taken = hd++bs) ∧
    ∀ f, readPayload hd kind sid length pd bs = .ready (.ok f) →
      f.encode.length = (hd++bs).length := by
  unfold readPayload
  split_ifs with hs
  · refine ⟨?_,?_⟩
    · intro next h
      cases h
      rfl
    · exact nofun
  · refine ⟨?_,?_⟩
    · exact nofun
    · intro f h
      obtain ⟨-,-,hp⟩ := new_eq_ok.mp (Progress.ready.inj h)
      rw [encode,length_append,length_append,length_header, hp,length_of_parseHeader pd]

variable {bs : Bytes}

theorem length_readHeader : (∀ next, readHeader bs = .pending next → next.taken = bs) ∧
    ∀ f, readHeader bs = .ready (.ok f) → f.encode.length = bs.length := by
  unfold readHeader
  split_ifs with hs
  · refine ⟨?_,?_⟩
    · intro next h
      cases h
      rfl
    · exact nofun
  · split
    · next kind sid length pd =>
      have hp := length_readPayload pd []
      rw [append_nil] at hp
      exact hp
    · refine ⟨?_,?_⟩
      all_goals exact nofun

theorem length_advance (future : ReadFrame) (chunk : Bytes) :
    (∀ next, future.advance chunk = .pending next → next.taken = future.taken++chunk) ∧
    ∀ f, future.advance chunk = .ready (.ok f) →
      f.encode.length = (future.taken++chunk).length := by
  cases future with
  | first | header bs short => exact length_readHeader
  | payload hd kind sid length bs pd short =>
    rw [taken,append_assoc]
    exact length_readPayload pd _

/-- Within the bytes of a frame a read stays pending or completes exactly that frame. -/
theorem readPayload_of_encode {hd : Bytes} {sid : UInt32} {length : ℕ}
    (pd : BrokerFrame.parseHeader hd = .ok (kind, sid, length))
    (hb : bs.length ≤ length) (h : hd++(bs++xs) = f.encode++later) :
    (∃ next, readPayload hd kind sid length pd bs = .pending next) ∨
      readPayload hd kind sid length pd bs = .ready (.ok f) ∧ hd++bs = f.encode := by
  rw [encode,append_assoc] at h
  obtain ⟨hh,hpa⟩ := append_inj h ((length_of_parseHeader pd).trans (length_header f).symm)
  have hp := pd
  rw [hh,parseHeader_header] at hp
  cases hp
  unfold readPayload
  split_ifs with hs
  · exact .inl ⟨_,rfl⟩
  · have hl : bs.length = f.payload.length := by omega
    obtain ⟨rfl,-⟩ := append_inj hpa hl
    refine .inr ⟨?_,?_⟩
    · rw [new_eq_ok.mpr ⟨rfl,rfl,rfl⟩]
    · rw [hh,encode]

theorem readHeader_of_encode (hb : bs.length ≤ brokerFrameHeaderBytes)
    (h : bs++xs = f.encode++later) :
    (∃ next, readHeader bs = .pending next) ∨ readHeader bs = .ready (.ok f) ∧ bs = f.encode := by
  unfold readHeader
  split_ifs with hs
  · exact .inl ⟨_,rfl⟩
  · have hl : bs.length = f.header.length := by
      rw [length_header]
      omega
    have hh : bs = f.header := by
      rw [encode,append_assoc] at h
      exact (append_inj h hl).1
    split
    · next kind sid length pd =>
      have he : ([] : Bytes).length ≤ length := Nat.zero_le length
      have hp := readPayload_of_encode pd he h
      rw [append_nil] at hp
      exact hp
    · next er pd =>
      rw [hh,parseHeader_header] at pd
      cases pd

theorem advance_of_encode (hc : chunk.length ≤ future.wants)
    (h : future.taken++(chunk++xs) = f.encode++later) :
    (∃ next, future.advance chunk = .pending next) ∨
      future.advance chunk = .ready (.ok f) ∧ future.taken++chunk = f.encode := by
  cases future with
  | first =>
    rw [taken,nil_append] at h
    apply readHeader_of_encode _ h
    exact Nat.le_trans hc (by decide)
  | header bs short =>
    rw [taken,← append_assoc] at h
    apply readHeader_of_encode _ h
    rw [length_append]
    rw [wants] at hc
    omega
  | payload hd kind sid length bs pd short =>
    rw [taken,append_assoc,← append_assoc bs] at h
    rw [taken,append_assoc]
    apply readPayload_of_encode pd _ h
    rw [length_append]
    rw [wants] at hc
    omega

end ReadFrame

section runs
variable {frames : List BrokerFrame} {s t : Input} {e : Event}

/-- Bytes in dispatched frames, held by the reader or still to come. -/
def Input.total (s : Input) : ℕ :=
  (s.dispatched.flatMap BrokerFrame.encode).length+(s.future.taken++s.wire).length

/-- Another branch wins only while the reader holds no byte. -/
def DropsNothing (s : Input) (event : Event) : Prop :=
  event = .otherBranch → s.future.taken = []

instance (s : Input) (event : Event) : Decidable (DropsNothing s event) :=
  inferInstanceAs (Decidable (_ → _))

/-- Bytes never come back: a step keeps their number only if it drops none. -/
theorem total_step (ht : s.step e = some t) :
    t.total ≤ s.total ∧ (t.total = s.total → DropsNothing s e) := by
  unfold Input.step at ht
  split at ht
  · cases ht
  · next n _ =>
    refine ⟨?_,fun _ h => Event.noConfusion h⟩
    split_ifs at ht
    have hw : (s.wire.take n).length+(s.wire.drop n).length = s.wire.length := by
      rw [← length_append,take_append_drop]
    have ha := ReadFrame.length_advance s.future (s.wire.take n)
    split at ht
    · next future hfu =>
      cases ht
      have hta := ha.1 future hfu
      simp only [Input.total,hta,length_append]
      omega
    · next f hf =>
      cases ht
      have hl := ha.2 f hf
      simp only [Input.total,ReadFrame.taken,flatMap_append,flatMap_singleton,
        length_append,length_nil] at hl ⊢
      omega
    · cases ht
      simp only [Input.total,ReadFrame.taken,length_append,length_nil]
      omega
  · cases ht
    simp only [Input.total,ReadFrame.taken,DropsNothing,length_append,length_nil]
    refine ⟨by omega,?_⟩
    intro hto _
    exact eq_nil_of_length_eq_zero (by omega)
  · refine ⟨?_,fun _ h => Event.noConfusion h⟩
    split_ifs at ht
    split at ht
    all_goals
      cases ht
      exact Nat.le_refl _
  · refine ⟨?_,fun _ h => Event.noConfusion h⟩
    split at ht
    all_goals
      cases ht
      exact Nat.le_refl _
  · cases ht
    exact ⟨Nat.le_refl _,fun _ h => Event.noConfusion h⟩

theorem total_run {es : List Event} (h : EventRun.run Input.step s es = some t) :
    t.total ≤ s.total ∧ (t.total = s.total → EventRun.Along Input.step DropsNothing s es) := by
  induction es generalizing s with
  | nil =>
    cases Option.some.inj h
    exact ⟨Nat.le_refl _,fun _ => trivial⟩
  | cons e xs ih =>
    obtain ⟨u,hu,hr⟩ := EventRun.run_cons.mp h
    obtain ⟨hs,hd⟩ := total_step hu
    obtain ⟨hl,ha⟩ := ih hr
    refine ⟨Nat.le_trans hl hs,?_⟩
    intro ht
    rw [EventRun.Along,hu]
    exact ⟨hd (by omega),ha (by omega)⟩

/-- The reader stands within the frames that were not dispatched yet. -/
def Tracks (frames : List BrokerFrame) (s : Input) : Prop :=
  ∃ rest, frames = s.dispatched++rest ∧ s.future.taken++s.wire = rest.flatMap BrokerFrame.encode

theorem Tracks.faithful (h : Tracks frames s) : Faithful frames s := by
  obtain ⟨xs,rfl,hb⟩ := h
  refine ⟨prefix_append _ _,?_⟩
  rw [hb,flatMap_append]

theorem Tracks.read (h : Tracks frames s) {n : ℕ} (hp : 0 < n)
    (hw : n ≤ s.future.wants) (hco : n ≤ s.wire.length) :
    (∃ future, s.future.advance (s.wire.take n) = .pending future ∧
      Tracks frames { s with wire := s.wire.drop n, future }) ∨
    ∃ f, s.future.advance (s.wire.take n) = .ready (.ok f) ∧ Tracks frames { s with
        wire := s.wire.drop n
        future := .first
        dispatched := s.dispatched++[f] } := by
  obtain ⟨xs,hf,hb⟩ := h
  rw [← take_append_drop n s.wire] at hb
  cases xs with
  | nil =>
    -- all frames are dispatched, so there is no byte to read
    have hl := congrArg length hb
    simp only [flatMap_nil,length_append,length_nil,length_take] at hl
    omega
  | cons f xs =>
    have hc : (s.wire.take n).length ≤ s.future.wants := by
      rw [length_take]
      omega
    rcases ReadFrame.advance_of_encode hc hb with ⟨future,hfu⟩ | ⟨hfr,ht⟩
    · refine .inl ⟨future,hfu,f::xs,hf,?_⟩
      rw [(ReadFrame.length_advance _ _).1 future hfu,append_assoc,hb,flatMap_cons]
    · refine .inr ⟨f,hfr,xs,?_,?_⟩
      · rw [hf,append_assoc,singleton_append]
      · rw [← append_assoc,ht] at hb
        exact append_cancel_left hb

theorem Tracks.step (h : Tracks frames s) (hd : DropsNothing s e)
    (ht : s.step e = some t) : Tracks frames t := by
  unfold Input.step at ht
  split at ht
  · cases ht
  · split_ifs at ht with hr
    obtain ⟨hp,hw,hc⟩ := hr
    rcases h.read hp hw hc with ⟨future,hfu,hn⟩ | ⟨f,hf,hn⟩
    · rw [hfu] at ht
      cases ht
      exact hn
    · rw [hf] at ht
      cases ht
      exact hn
  · cases ht
    obtain ⟨xs,hfr,hb⟩ := h
    rw [hd rfl] at hb
    exact ⟨xs,hfr,hb⟩
  · split_ifs at ht
    split at ht
    all_goals
      cases ht
      exact h
  · split at ht
    all_goals
      cases ht
      exact h
  · cases ht
    exact h

end runs

/-- Frames are dispatched as they were sent and no byte is lost, exactly if no other
branch of the loop completes while a frame is partly read. -/
theorem faithful_iff {frames : List BrokerFrame} {events : List Event} {s : Input}
    (h : EventRun.run Input.step (.start frames) events = some s) :
    Faithful frames s ↔ EventRun.Along Input.step DropsNothing (.start frames) events := by
  constructor
  · intro hf
    apply (total_run h).2
    have hl := congrArg length hf.bytes
    rw [length_append] at hl
    exact hl.trans (Nat.zero_add _).symm
  · intro ha
    have hst : Tracks frames (.start frames) := ⟨frames,rfl,rfl⟩
    exact (EventRun.run_invariant_along (fun _ _ _ hs hd ht => hs.step hd ht) hst ha h).faithful

/-- A stop frame, and a packet whose bytes are those of the stop frame. -/
def stopFrame : BrokerFrame := ⟨.stop,0,[],by decide,by decide⟩

def packetFrame : BrokerFrame := ⟨.streamData,2,stopFrame.encode,by decide,by decide⟩

theorem faithful_iff_packetFrame : ∃ s, EventRun.run Input.step (.start [packetFrame,stopFrame])
      [.otherBranch,.read 1,.read 7,.read 8,.read 16,.otherBranch,.read 1] = some s ∧
      s.dispatched = [packetFrame] ∧ Faithful [packetFrame,stopFrame] s :=
  exists_some_and (P := fun s => s.dispatched = [packetFrame]) (by decide +kernel)
    fun _ hs hd => ⟨hd,(faithful_iff hs).mpr (by decide +kernel)⟩

/-- Another branch wins after the packet's header was read. The packet's bytes are then
read as a frame of their own, and the loop dispatches a stop that nobody sent. -/
theorem stop_dispatched_from_packet : ∃ s, EventRun.run Input.step (.start [packetFrame])
      [.read 1,.read 15,.otherBranch,.read 1,.read 15] = some s ∧
      s.dispatched = [stopFrame] ∧ ¬s.dispatched <+: [packetFrame] := by
  refine exists_some_and (P := fun s => s.dispatched = [stopFrame]) (by decide +kernel)
    fun s _ hd => ⟨hd,?_⟩
  rw [hd]
  decide +kernel

end Cdenv.FrameReading
