import Spadia.Rtcp.FeedbackPacket
import Spadia.Rtp.Packet

namespace Spadia.Session.Manager

open Foundation.TracedRead Read Rtcp.FeedbackPacket Rtp.Packet TransportCC.Feedback

inductive RTPExtensionType
  | unknown
  | transportCC
deriving DecidableEq, Repr

def transportCCUri : String :=
  "http://www.ietf.org/id/draft-holmer-rmcat-transport-wide-cc-extensions-01"

structure RTPSessionManager where
  extMap : Std.ExtTreeMap UInt8 RTPExtensionType := ∅

namespace RTPSessionManager

def setExtension (manager : RTPSessionManager) (id : UInt8) (extUri : String) :
    RTPSessionManager × Bool :=
  if extUri = transportCCUri then
    ({ manager with extMap := manager.extMap.insert id .transportCC }, true)
  else (manager, false)

/-- The first id, in the order of the map, that stands for the extension. -/
def getExtensionId (manager : RTPSessionManager) (type : RTPExtensionType) : Option UInt8 :=
  (manager.extMap.toList.find? fun e ↦ e.2 = type).map Prod.fst

/-- `RTPIncomingSession::AddPacket`, as far as it does something: the feedback packet that
it hands to `OnRTCP`. The feedback count of a new field has no initialiser, `raw` is its
value. -/
def addPacket (manager : RTPSessionManager) (pkt : RTPPacket) (nowUS : UInt64) (raw : UInt8) :
    Read (Option RTCPRTPFeedbackPacket) :=
  match manager.getExtensionId .transportCC with
  | none => return none
  | some tccId => do
    let tccNum ← pkt.getTransportCCNum tccId
    return tccNum.map fun num ↦
      { ssrc := pkt.ssrc
        field := .transportCC
          (TransportCCFeedBack.insertPacket { feedbackPacketCount := raw } num.toUInt32 nowUS) }

end RTPSessionManager

end Spadia.Session.Manager
