import Cdenv.Fallible
import Cdenv.TextScan

/-!
# Credential broker frames

The wire format between the host broker and the bridge in the container. The fixed header is
sixteen bytes: magic, version, kind, a zero byte, stream and payload length, all numbers
big-endian.
-/
namespace Cdenv.BrokerProtocol
open Fallible

def maxBrokerFrameBytes : ℕ := 64*1024
def maxBrokerStreams : ℕ := 32
def maxBrokerQueuedFrames : ℕ := 64
def maxBrokerQueuedBytes : ℕ := 512*1024
def maxBrokerHelpers : ℕ := 4
def credentialBrokerProtocol : ℕ := 1
def brokerFrameHeaderBytes : ℕ := 16

inductive BrokerFrameKind where
  | hello | helloAck | credentialLookup | credentialResult | agentOpen | streamData | streamClose
  | cancel | identityRequest | identityResult | health | healthAck | stop | error
deriving DecidableEq

/-- The protocol errors the frame codec and the two dispatch loops report. -/
inductive BrokerProtocolError where
  | truncated | framing | version | kind | bounds | streamId | streamLimit | unknownStream
deriving DecidableEq

namespace BrokerFrameKind

def toByte : BrokerFrameKind → UInt8
  | .hello => 1
  | .helloAck => 2
  | .credentialLookup => 3
  | .credentialResult => 4
  | .agentOpen => 5
  | .streamData => 6
  | .streamClose => 7
  | .cancel => 8
  | .identityRequest => 9
  | .identityResult => 10
  | .health => 11
  | .healthAck => 12
  | .stop => 13
  | .error => 14

def ofByte (value : UInt8) : Except BrokerProtocolError BrokerFrameKind :=
  match value.toNat with
  | 1 => .ok .hello
  | 2 => .ok .helloAck
  | 3 => .ok .credentialLookup
  | 4 => .ok .credentialResult
  | 5 => .ok .agentOpen
  | 6 => .ok .streamData
  | 7 => .ok .streamClose
  | 8 => .ok .cancel
  | 9 => .ok .identityRequest
  | 10 => .ok .identityResult
  | 11 => .ok .health
  | 12 => .ok .healthAck
  | 13 => .ok .stop
  | 14 => .ok .error
  | _ => .error .kind

def connectionControl : BrokerFrameKind → Bool
  | .hello | .helloAck | .health | .healthAck | .stop => true
  | _ => false

theorem ofByte_toByte (kind : BrokerFrameKind) : ofByte kind.toByte = .ok kind := by
  cases kind <;> rfl

end BrokerFrameKind

/-- A frame names its operation, the stream it belongs to and a bounded payload; control frames of
the connection itself, and only they, carry stream zero. -/
structure BrokerFrame where
  kind : BrokerFrameKind
  streamId : UInt32
  payload : Bytes
  bounded : payload.length ≤ maxBrokerFrameBytes
  control : kind.connectionControl = (streamId == 0)
deriving DecidableEq

namespace BrokerFrame

def new (kind : BrokerFrameKind) (streamId : UInt32) (payload : Bytes) :
    Except BrokerProtocolError BrokerFrame :=
  if hsize : payload.length ≤ maxBrokerFrameBytes then
    if hcontrol : kind.connectionControl = (streamId == 0) then
      .ok ⟨kind,streamId,payload,hsize,hcontrol⟩
    else .error .streamId
  else .error .bounds

theorem new_eq_ok {k : BrokerFrameKind} {sid : UInt32} {payload : Bytes}
    {f : BrokerFrame} : new k sid payload = .ok f ↔
      f.kind = k ∧ f.streamId = sid ∧ f.payload = payload := by
  unfold new
  split_ifs with hs hc
  · constructor
    · intro h
      cases h
      exact ⟨rfl,rfl,rfl⟩
    · rintro ⟨rfl,rfl,rfl⟩
      rfl
  · constructor
    · exact nofun
    · rintro ⟨rfl,rfl,rfl⟩
      exact (hc f.control).elim
  · constructor
    · exact nofun
    · rintro ⟨rfl,rfl,rfl⟩
      exact (hs f.bounded).elim

/-- The four bytes of a number, most significant first. -/
def be32 (n : ℕ) : Bytes :=
  [UInt8.ofNat (n / 2^24),UInt8.ofNat (n / 2^16),UInt8.ofNat (n / 2^8),UInt8.ofNat n]

def fromBe32 (a b c d : UInt8) : ℕ :=
  a.toNat*2^24+b.toNat*2^16+c.toNat*2^8+d.toNat

theorem fromBe32_be32 {n : ℕ} (h : n < 2^32) :
    fromBe32 (UInt8.ofNat (n / 2^24)) (UInt8.ofNat (n / 2^16)) (UInt8.ofNat (n / 2^8))
      (UInt8.ofNat n) = n := by
  simp only [fromBe32,UInt8.toNat_ofNat']
  omega

/-- The fixed header. The version takes two bytes, the eighth byte is reserved. -/
def header (frame : BrokerFrame) : Bytes :=
  [67,68,66,82,0,1,frame.kind.toByte,0]++be32 frame.streamId.toNat++be32 frame.payload.length

def encode (frame : BrokerFrame) : Bytes := frame.header++frame.payload

/-- Kind, stream and payload length of a header of exactly sixteen bytes. -/
def parseHeader : Bytes → Except BrokerProtocolError (BrokerFrameKind × UInt32 × ℕ)
  | [m₀,m₁,m₂,m₃,v₀,v₁,k,z,s₀,s₁,s₂,s₃,l₀,l₁,l₂,l₃] => do
    require ([m₀,m₁,m₂,m₃] == [67,68,66,82] && z == 0) .framing
    require (v₀.toNat*2^8+v₁.toNat == credentialBrokerProtocol) .version
    let kind ← BrokerFrameKind.ofByte k
    let length := fromBe32 l₀ l₁ l₂ l₃
    require (length ≤ maxBrokerFrameBytes) .bounds
    return (kind, UInt32.ofNat (fromBe32 s₀ s₁ s₂ s₃), length)
  | _ => .error .framing

@[simp] theorem length_header (f : BrokerFrame) : f.header.length = brokerFrameHeaderBytes := rfl

/-- A written header reads back as what it was written from. -/
theorem parseHeader_header (f : BrokerFrame) :
    parseHeader f.header = .ok (f.kind, f.streamId, f.payload.length) := by
  have hl : f.payload.length < 2^32 := Nat.lt_of_le_of_lt f.bounded (by decide)
  have hid := fromBe32_be32 f.streamId.toNat_lt
  simp only [header,be32,List.cons_append,List.nil_append,parseHeader,
    BrokerFrameKind.ofByte_toByte,fromBe32_be32 hl,hid,UInt32.ofNat_toNat]
  simp only [bind_eq_ok,require_eq_ok,pure_eq_ok]
  refine ⟨(),by decide,(),by decide,f.kind,rfl,(),?_,rfl⟩
  exact decide_eq_true f.bounded

end BrokerFrame

/-- An agent packet is its body behind the body's length; both ends check it. -/
def validateAgentPacket (packet : Bytes) : Except BrokerProtocolError Unit :=
  match packet with
  | a::b::c::d::_ =>
    let body := BrokerFrame.fromBe32 a b c d
    require (body != 0 && body+4 == packet.length) .framing
  | _ => .error .framing

end Cdenv.BrokerProtocol
