import Cdenv.FrameReading

/-!
# Reading frames from a blocking stream

`read_from` fills the header and then the payload from reads that return what is at hand.
However the bytes are cut into reads, the frames it yields up to a clean end are the ones
whose encodings were sent, and a clean end is reached after nothing else.
-/
namespace Cdenv.FrameStream
open Fallible BrokerProtocol FrameReading List BrokerFrame

/-- What a read finds: bytes, of which it takes as many as fit, or an error. -/
inductive Delivery where
  | chunk (bytes : Bytes)
  | interrupted | failed
deriving DecidableEq

/-- A read of no bytes ends the loop, an interrupted one is repeated. -/
def readFull : ℕ → List Delivery → Except InputError Bytes × List Delivery
  | 0, input => (.ok [], input)
  | _, [] => (.ok [], [])
  | _, .failed::rest => (.error .io, rest)
  | want, .interrupted::rest => readFull want rest
  | want, .chunk bytes::rest =>
    if bytes = [] then (.ok [], rest)
    else if want < bytes.length then (.ok (bytes.take want), .chunk (bytes.drop want)::rest)
    else
      let (got, left) := readFull (want - bytes.length) rest
      (got.map (bytes ++ ·), left)

structure Reading where
  result : Except InputError (Option BrokerFrame)
  /-- The size of the payload buffer, if one was allocated. -/
  allocated : Option ℕ
  rest : List Delivery

def readPayload (kind : BrokerFrameKind) (streamId : UInt32) (length : ℕ)
    (input : List Delivery) : Reading :=
  match readFull length input with
  | (.error error, rest) => ⟨.error error,some length,rest⟩
  | (.ok payload, rest) =>
    if payload.length ≠ length then ⟨.error (.protocol .truncated),some length,rest⟩
    else ⟨((BrokerFrame.new kind streamId payload).mapError .protocol).map some,some length,rest⟩

def readFrom (input : List Delivery) : Reading :=
  match readFull brokerFrameHeaderBytes input with
  | (.error error, rest) => ⟨.error error,none,rest⟩
  | (.ok head, rest) =>
    if head.length = 0 then ⟨.ok none,none,rest⟩
    else if head.length ≠ brokerFrameHeaderBytes then ⟨.error (.protocol .truncated),none,rest⟩
    else
      match BrokerFrame.parseHeader head with
      | .error error => ⟨.error (.protocol error),none,rest⟩
      | .ok (kind, streamId, length) => readPayload kind streamId length rest

/-- Repeated `read_from` yields these frames and then a clean end. -/
inductive Reads : List Delivery → List BrokerFrame → Prop where
  | done {input : List Delivery} (h : (readFrom input).result = .ok none) : Reads input []
  | next {input : List Delivery} {frame : BrokerFrame} {frames : List BrokerFrame}
      (h : (readFrom input).result = .ok (some frame)) (later : Reads (readFrom input).rest frames) :
      Reads input (frame::frames)

def received : List Delivery → Bytes
  | [] => []
  | .chunk bytes::rest => bytes++received rest
  | _::rest => received rest

/-- The bytes come in nonempty chunks and no read fails; reads may be interrupted. -/
def Steady (input : List Delivery) : Prop := .failed ∉ input ∧ .chunk [] ∉ input
deriving Decidable

variable {input : List Delivery} {frame : BrokerFrame}

theorem Steady.tail {delivery : Delivery} (h : Steady (delivery::input)) : Steady input :=
  ⟨fun hf => h.1 (.tail _ hf),fun he => h.2 (.tail _ he)⟩

theorem readFull_steady (h : Steady input) (want : ℕ) :
    ∃ rest, readFull want input = (.ok ((received input).take want), rest) ∧
      received rest = (received input).drop want ∧ Steady rest := by
  fun_induction readFull want input with
  | case1 input => exact ⟨input,by simp,by simp,h⟩
  | case2 => exact ⟨[],by simp [received],by simp [received],h⟩
  | case3 => exact absurd (mem_cons_self ..) h.1
  | case4 want rest hw ih => exact ih h.tail
  | case5 want rest hw => exact absurd (mem_cons_self ..) h.2
  | case6 want bs rest hw hb hl =>
    refine ⟨.chunk (bs.drop want)::rest,?_,?_,?_⟩
    · rw [received,take_append_of_le_length (Nat.le_of_lt hl)]
    · rw [received,received,drop_append_of_le_length (Nat.le_of_lt hl)]
    · have hle : bs.drop want ≠ [] := by simpa using hl
      simp [Steady,h.tail.1,h.tail.2,hle.symm]
  | case7 want bs rest hw hb hs got left hr ih =>
    obtain ⟨rest',heq,hre⟩ := ih h.tail
    cases hr.symm.trans heq
    refine ⟨left,?_,?_⟩
    · simp [received,take_append,take_of_length_le (Nat.le_of_not_lt hs),Except.map]
    · simpa [received,drop_append,drop_of_length_le (Nat.le_of_not_lt hs)] using hre

theorem be32_fromBe32 (a b c d : UInt8) :
    BrokerFrame.be32 (BrokerFrame.fromBe32 a b c d) = [a,b,c,d] := by
  have ha := a.toNat_lt
  have hb := b.toNat_lt
  have hc := c.toNat_lt
  have hd := d.toNat_lt
  simp only [be32,fromBe32,cons.injEq,← UInt8.toNat_inj,UInt8.toNat_ofNat',and_true]
  omega

theorem fromBe32_lt (a b c d : UInt8) : BrokerFrame.fromBe32 a b c d < 2^32 := by
  have ha := a.toNat_lt
  have hb := b.toNat_lt
  have hc := c.toNat_lt
  have hd := d.toNat_lt
  unfold fromBe32
  omega

theorem toByte_of_ofByte {value : UInt8} {k : BrokerFrameKind}
    (h : BrokerFrameKind.ofByte value = .ok k) : k.toByte = value := by
  rw [← UInt8.toNat_inj]
  unfold BrokerFrameKind.ofByte at h
  split at h <;> cases h <;> simp_all [BrokerFrameKind.toByte]

/-- Only the header of a frame is parsed as one. -/
theorem header_of_parseHeader {head : Bytes}
    (h : BrokerFrame.parseHeader head = .ok (frame.kind, frame.streamId, frame.payload.length)) :
    frame.header = head := by
  unfold parseHeader at h
  split at h
  case h_2 => cases h
  case h_1 m₀ m₁ m₂ m₃ v₀ v₁ k z s₀ s₁ s₂ s₃ l₀ l₁ l₂ l₃ =>
    simp only [bind_eq_ok,require_eq_ok,pure_eq_ok,Prod.mk.injEq] at h
    obtain ⟨-,hm,-,hv,kd,hk,-,-,rfl,hs,hl⟩ := h
    have hid : frame.streamId.toNat = fromBe32 s₀ s₁ s₂ s₃ := by
      rw [← hs,UInt32.toNat_ofNat',Nat.mod_eq_of_lt (fromBe32_lt ..)]
    have ho : v₀ = 0 ∧ v₁ = 1 := by
      simp only [credentialBrokerProtocol,beq_iff_eq] at hv
      simp only [← UInt8.toNat_inj,UInt8.toNat_ofNat]
      omega
    rw [header,hid,← hl,be32_fromBe32,be32_fromBe32,toByte_of_ofByte hk]
    simp_all

theorem readPayload_result (k : BrokerFrameKind) (sid : UInt32) (length : ℕ) :
    (readPayload k sid length input).result ≠ .ok none := by
  unfold readPayload
  split
  · nofun
  split
  · nofun
  · cases new _ _ _ <;> nofun

theorem readFrom_done (h : Steady input) :
    (readFrom input).result = .ok none ↔ received input = [] := by
  obtain ⟨xs,hh,-,-⟩ := readFull_steady h brokerFrameHeaderBytes
  have he : ((received input).take brokerFrameHeaderBytes).length = 0 ↔ received input = [] := by
    simp [brokerFrameHeaderBytes]
  rw [← he,readFrom,hh]
  dsimp only
  split_ifs with hz hs
  · exact iff_of_true rfl hz
  · exact iff_of_false nofun hz
  · refine iff_of_false ?_ hz
    split
    · nofun
    · apply readPayload_result

theorem readFrom_encode {lt : Bytes} (h : Steady input) (hi : received input = frame.encode++lt) :
    (readFrom input).result = .ok (some frame) ∧ received (readFrom input).rest = lt ∧
      Steady (readFrom input).rest := by
  rw [encode,append_assoc] at hi
  obtain ⟨xs,hh,hr,hs⟩ := readFull_steady h brokerFrameHeaderBytes
  rw [hi,take_left' frame.length_header] at hh
  rw [hi,drop_left' frame.length_header] at hr
  obtain ⟨left,hp,hl,hs'⟩ := readFull_steady hs frame.payload.length
  rw [hr,take_left] at hp
  rw [hr,drop_left] at hl
  have hn : new frame.kind frame.streamId frame.payload = .ok frame := new_eq_ok.mpr ⟨rfl,rfl,rfl⟩
  have hre : readFrom input = ⟨.ok (some frame),some frame.payload.length,left⟩ := by
    simp only [readFrom,hh,length_header,parseHeader_header,
      readPayload,hp,hn,ne_eq,not_true_eq_false,if_false]
    rfl
  rw [hre]
  exact ⟨rfl,hl,hs'⟩

theorem encode_of_readFrom (h : Steady input) (hr : (readFrom input).result = .ok (some frame)) :
    received input = frame.encode++received (readFrom input).rest ∧
      Steady (readFrom input).rest := by
  obtain ⟨xs,hh,hre,hs⟩ := readFull_steady h brokerFrameHeaderBytes
  unfold readFrom at hr ⊢
  rw [hh] at hr ⊢
  dsimp only at hr ⊢
  split_ifs at hr ⊢ with hz hsi
  · cases hr
  cases hp : parseHeader ((received input).take brokerFrameHeaderBytes) with
  | error error => simp [hp] at hr
  | ok pd =>
    obtain ⟨k,sid,length⟩ := pd
    obtain ⟨left,hpa,hle,hs'⟩ := readFull_steady hs length
    simp only [hp,readPayload,hpa] at hr ⊢
    split_ifs at hr ⊢ with hl
    cases hn : new k sid ((received xs).take length) with
    | error error => simp [hn,Except.map,Except.mapError] at hr
    | ok fs =>
      simp only [hn,Except.map,Except.mapError,Except.ok.injEq,Option.some.injEq] at hr
      subst hr
      obtain ⟨rfl,rfl,hb⟩ := new_eq_ok.mp hn
      rw [← hb,not_not] at hl
      subst hl
      refine ⟨?_,hs'⟩
      rw [encode,header_of_parseHeader hp,hb,hle,append_assoc,take_append_drop,hre,take_append_drop]

theorem allocated_le (input : List Delivery) :
    ∀ size ∈ (readFrom input).allocated, size ≤ maxBrokerFrameBytes := by
  intro size hs
  unfold readFrom at hs
  split at hs
  · cases hs
  split_ifs at hs
  · cases hs
  · cases hs
  split at hs
  · cases hs
  rename_i pd k sid length hp
  have hl : size = length := by
    unfold readPayload at hs
    split at hs
    · exact (Option.some.inj hs).symm
    split_ifs at hs <;> exact (Option.some.inj hs).symm
  unfold parseHeader at hp
  split at hp
  · simp only [bind_eq_ok,require_eq_ok,pure_eq_ok,Prod.mk.injEq] at hp
    obtain ⟨-,-,-,-,-,-,-,hb,-,-,rfl⟩ := hp
    rw [hl]
    exact of_decide_eq_true hb
  · cases hp

theorem reads_iff_of_steady (h : Steady input) (frames : List BrokerFrame) :
    Reads input frames ↔ received input = frames.flatMap BrokerFrame.encode := by
  induction frames generalizing input with
  | nil =>
    constructor
    · rintro ⟨hd⟩
      exact (readFrom_done h).mp hd
    · intro hi
      exact .done ((readFrom_done h).mpr hi)
  | cons frame frames ih =>
    rw [flatMap_cons]
    constructor
    · rintro ⟨hr,hl⟩
      rename_i hr hl
      obtain ⟨hi,hs⟩ := encode_of_readFrom h hr
      rw [hi,(ih hs).mp hl]
    · intro hi
      obtain ⟨hr,hre,hs⟩ := readFrom_encode h hi
      exact .next hr ((ih hs).mpr hre)

/-- However the bytes arrive, repeated reads yield exactly the frames whose encodings they
are and then a clean end. No buffer is larger than a payload may be. -/
theorem readFrom_stream (input : List Delivery) :
    (∀ size ∈ (readFrom input).allocated, size ≤ maxBrokerFrameBytes) ∧
      (Steady input → ∀ frames, Reads input frames ↔
        received input = frames.flatMap BrokerFrame.encode) :=
  ⟨allocated_le input,reads_iff_of_steady⟩

theorem readFrom_stream_cut :
    Reads [.chunk [67,68],.interrupted,.chunk [66,82,0,1,13,0,0,0,0,0,0,0,0,0,67],
      .chunk [68,66,82,0,1,6,0,0,0,0,9,0,0,0,2,5],.chunk [7]]
      [⟨.stop,0,[],by decide,rfl⟩,⟨.streamData,9,[5,7],by decide,rfl⟩] :=
  ((readFrom_stream _).2 (by decide) _).mpr rfl

end Cdenv.FrameStream
