import Spadia.Foundation.SlidingWindow
import Spadia.Rtp.Packet

namespace Spadia.Session.LostSession

open Foundation.SlidingWindow Rtp.Packet

/-- One slot of the ring. An `extSeq` of `-1` marks a slot that was never used. -/
structure PacketInfo where
  lossAtTime : UInt64 := 0
  createdAtTime : UInt64 := 0
  sentAtTime : UInt64 := 0
  retry : UInt8 := 0
  extSeq : ℤ := -1
deriving DecidableEq, Repr

namespace PacketInfo

def create (extSeq : UInt32) (createTime : UInt64) : PacketInfo :=
  { extSeq := extSeq.toNat, createdAtTime := createTime }

def isCountInTotalLost (pkt : PacketInfo) : Bool := pkt.createdAtTime = 0 ∧ pkt.extSeq ≠ -1

def nackWaitTime : UInt64 := 20

def jitterTime : UInt64 := 5

/-- Whether a slot is due for a retransmission request. The last two times are compared as
`double`, which is exact as long as one side is below `2^53`. -/
def isLost (pkt : PacketInfo) (now : UInt64) (rtt : UInt32) : Bool :=
  pkt.createdAtTime = 0 ∧ now - pkt.lossAtTime > jitterTime ∧
    (now - pkt.sentAtTime).toNat > max nackWaitTime.toNat rtt.toNat ∧ pkt.retry < 20 ∧
    pkt.extSeq ≠ -1

end PacketInfo

/-- `RTPIncomingSession::RTPLostSession`, with `Size = 256`. -/
structure RTPLostSession where
  packets : Vector PacketInfo 256 := Vector.replicate 256 {}
  totalLost : UInt16 := 0
  nextSeq : UInt32 := 0

namespace RTPLostSession

def packetAt (s : RTPLostSession) (n : UInt32) : PacketInfo := s.packets.get (slot 256 n.toNat)

def store (s : RTPLostSession) (n : UInt32) (info : PacketInfo) : RTPLostSession :=
  { s with packets := s.packets.set (slot 256 n.toNat) info (slot 256 n.toNat).isLt }

/-- `if (isCountInTotalLost(packets[n % Size])) totalLost --;` -/
def uncover (s : RTPLostSession) (n : UInt32) : RTPLostSession :=
  if (s.packetAt n).isCountInTotalLost then { s with totalLost := s.totalLost - 1 } else s

def reset (_ : RTPLostSession) : RTPLostSession := {}

def fill (s : RTPLostSession) (extSeq : UInt32) (now : UInt64) : RTPLostSession :=
  if s.nextSeq < extSeq then
    fill { (s.uncover s.nextSeq).store s.nextSeq
        { PacketInfo.create s.nextSeq 0 with lossAtTime := now } with
      nextSeq := s.nextSeq + 1
      totalLost := (s.uncover s.nextSeq).totalLost + 1 } extSeq now
  else s
termination_by extSeq.toNat - s.nextSeq.toNat
decreasing_by
  have hlt : s.nextSeq.toNat < extSeq.toNat := UInt32.lt_iff_toNat_lt.mp (by assumption)
  have := extSeq.toNat_lt
  rw [UInt32.toNat_add]
  simp only [UInt32.reduceToNat]
  omega

def Jumps (s : RTPLostSession) (extSeq : UInt32) : Prop :=
  extSeq > s.nextSeq ∧ extSeq - s.nextSeq ≥ 256 - 1

instance (s : RTPLostSession) (extSeq : UInt32) : Decidable (s.Jumps extSeq) :=
  inferInstanceAs (Decidable (_ ∧ _))

def addPacket (s : RTPLostSession) (packet : RTPPacket) : RTPLostSession × UInt16 :=
  let extSeq := packet.extSeqNum
  let info := PacketInfo.create extSeq packet.recvTimeMS
  let s := if s.Jumps extSeq then s.reset else s
  if s.nextSeq = 0 then
    -- A zero stands for a ring that holds nothing yet, so no loss is uncovered.
    ({ s.store extSeq info with nextSeq := extSeq + 1 }, s.totalLost)
  else if s.nextSeq ≤ extSeq then
    let s := s.fill extSeq packet.recvTimeMS
    let s := { (s.uncover extSeq).store extSeq info with nextSeq := s.nextSeq + 1 }
    (s, s.totalLost)
  else
    let s := (s.uncover extSeq).store extSeq info
    (s, s.totalLost)

end RTPLostSession

end Spadia.Session.LostSession
