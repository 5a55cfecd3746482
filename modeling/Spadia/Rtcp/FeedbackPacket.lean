import Spadia.Rtcp.Reports
import Spadia.TransportCC.Offset

namespace Spadia.Rtcp.FeedbackPacket

open Foundation.TracedRead Read Foundation.ByteBuffer Wire.ByteOrder Reports TransportCC.Feedback

def rtpFeedback : UInt8 := 205

def nackType : UInt8 := 1
def transportWideFeedbackMessage : UInt8 := 15

structure NackFeedBack where
  ssrc : UInt32
  fsn : UInt16
  blp : UInt16
deriving DecidableEq, Repr

def NackFeedBack.serialize (fb : NackFeedBack) (buffer : Buffer) (data : ℕ) : Buffer × ℕ :=
  (write (write (write buffer data (writeBE32 fb.ssrc)) (data + 4) (writeBE16 fb.fsn)) (data + 6)
    (writeBE16 fb.blp), 8)

def NackFeedBack.parse (data : ℕ) (_size : ℤ) : Read NackFeedBack := do
  let ssrc ← readBE32 data
  let fsn ← readBE16 (data + 4)
  let blp ← readBE16 (data + 6)
  return { ssrc, fsn, blp }

inductive FeedBackField
  | nack (fb : NackFeedBack)
  | transportCC (fb : TransportCCFeedBack)

namespace FeedBackField

def type : FeedBackField → UInt8
  | nack _ => nackType
  | transportCC _ => transportWideFeedbackMessage

def serialize (buffer : Buffer) (data : ℕ) : FeedBackField → Buffer × ℕ
  | nack fb => fb.serialize buffer data
  | transportCC fb => fb.serialize buffer data

/-- The virtual `Parse` of a new field of the same type. The feedback count of a new
transport-cc field is what `raw` says was in memory. -/
def parse (raw : UInt8) (data : ℕ) (size : ℤ) : FeedBackField → Read FeedBackField
  | nack _ => do
    let fb ← NackFeedBack.parse data size
    return .nack fb
  | transportCC _ => do
    let fb ← TransportCCFeedBack.parse { feedbackPacketCount := raw } data size
    return .transportCC fb

end FeedBackField

structure RTCPRTPFeedbackPacket where
  ssrc : UInt32
  field : FeedBackField

/-- `RTCPRTPFeedbackPacket::Serialize`: the header is written last, and the size that is
returned is the 16-bit length of the header. -/
def RTCPRTPFeedbackPacket.serialize (p : RTCPRTPFeedbackPacket) : Buffer × ℕ :=
  let len := rtcpCommonHeaderSize + 4 + 4
  let buffer := write (write malloc rtcpCommonHeaderSize (writeBE32 0)) (rtcpCommonHeaderSize + 4)
    (writeBE32 p.ssrc)
  let out := p.field.serialize buffer len
  let header : RTCPCommonHeader :=
    { packetType := rtpFeedback, length := UInt16.ofNat (out.2 + len), count := p.field.type }
  (write out.1 0 header.serialize, header.length.toNat)

/-- What becomes of a received packet: its transport-cc field may be parsed no further, use an
index that `statuses` has not, or be null when it is used. -/
inductive Received
  | running
  | badIndex
  | nullField
  | made (p : RTCPRTPFeedbackPacket)

def Received.ofField (ssrc : UInt32) : TransportCC.Offset.Progress → Received
  | .running => .running
  | .badIndex => .badIndex
  | .returned fb => .made ⟨ssrc, .transportCC fb⟩

/-- `RTCPRTPFeedbackPacket::Parse`, where the chunk loop of a field may run so many rounds. -/
def RTCPRTPFeedbackPacket.parse (rounds : ℕ) (raw : UInt8) (data : ℕ) (size : ℤ) :
    Read Received := do
  let parsed ← RTCPCommonHeader.parse data (UInt32.ofInt size)
  -- A header that was not parsed keeps its initial values.
  let header := parsed.getD {}
  let len := rtcpCommonHeaderSize + 4
  let ssrc ← readBE32 (data + len)
  let len := len + 4
  if header.count = nackType then do
    let fb ← NackFeedBack.parse (data + len) size
    return .made ⟨ssrc, .nack fb⟩
  else if header.count = transportWideFeedbackMessage then do
    let field ← TransportCC.Offset.parse rounds { feedbackPacketCount := raw } (data + len) size
    return .ofField ssrc field
  else return .nullField

/-- The constructor from received bytes. It passes the size on as it is. -/
def RTCPRTPFeedbackPacket.create (rounds : ℕ) (raw : UInt8) (data : ℕ) (size : ℤ) :
    Read Received := do
  let _ ← RTCPCommonHeader.parse data (UInt32.ofInt size)
  RTCPRTPFeedbackPacket.parse rounds raw (data + rtcpCommonHeaderSize) size

end Spadia.Rtcp.FeedbackPacket
