import Spadia.Rtp.Grammar

namespace Spadia.Rtp.Serialized

open Foundation TracedRead Read ByteBuffer Wire.ByteOrder Packet Grammar

variable (m : Memory) (p : RTPPacket) (session : RTPSession)

/-- The bytes that `Serialize` returns for a packet that was parsed in `m`. -/
def written : List UInt8 :=
  bytes ((p.serialize [] session).value m).1 0 ((p.serialize [] session).value m).2

def payload (p : RTPPacket) (m : Memory) : List UInt8 :=
  (List.range' p.payloadOffset p.payloadSize).map m

variable (raw : RTPPacket) (now : UInt64) (data : ℕ) (m' : Memory)

/-- `Parse` of a new object on what was written to `m'`. -/
def reparsed : Bool × RTPPacket :=
  ((raw.create now).parse data (written m p session).length).value m'

/-- The new object has the numbers of the session and everything else of the old packet. -/
structure Restored : Prop where
  accepted : (reparsed m p session raw now data m').1 = true
  version : m' 0 >>> 6 = kRtpVersion
  ssrc : (reparsed m p session raw now data m').2.ssrc = session.ssrc
  seqNum : (reparsed m p session raw now data m').2.seqNum = session.seq
  payloadType : (reparsed m p session raw now data m').2.payloadType = session.pt
  timestamp : (reparsed m p session raw now data m').2.timestamp = p.timestamp
  maker : (reparsed m p session raw now data m').2.maker = p.maker
  payload : payload (reparsed m p session raw now data m').2 m' = payload p m

variable {m p session raw now data m'}

theorem first_byte (h : Stores m' 0 (written m p session)) : m' 0 = 0x10 := by
  have hpos : 0 < (written m p session).length := by
    rw [written, length_bytes]
    exact Nat.lt_add_right p.payloadSize (by decide)
  have hbyte : ((p.serialize [] session).value m).1 0 = some 0x10 := rfl
  have hget := h.getElem hpos
  simpa [written, bytes, hbyte] using hget

/-- The bytes are not taken for RTP, and nothing of them gets into the object. -/
theorem reparsed_eq (h : Stores m' 0 (written m p session)) :
    reparsed m p session raw now data m' =
      (true, { raw.create now with data := data, size := (written m p session).length }) := by
  have hversion : (0x10 : UInt8) >>> 6 ≠ kRtpVersion := by decide
  simp only [reparsed, RTPPacket.parse, value_bind, value_ite, value_pure, value_byte,
    first_byte h, hversion, ne_eq, not_false_eq_true, if_true, ite_self]
  rfl

theorem serialized_not_restored (h : Stores m' 0 (written m p session)) :
    ¬ Restored m p session raw now data m' ∧
      reparsed m p session raw now data m' =
        (true, { raw.create now with data := data, size := (written m p session).length }) := by
  refine ⟨?_, reparsed_eq h⟩
  intro hrestored
  have hversion := hrestored.version
  rw [first_byte h] at hversion
  exact absurd hversion (by decide)

/-- A packet with the payload `AA BB`. -/
def source : Memory := ofList [0x80, 0xE0, 0, 1, 0, 0, 0, 2, 0, 0, 0, 7, 0xAA, 0xBB]

def parsedSource : RTPPacket := ((RTPPacket.create default 1).parse 0 14).value source |>.2

def rewritten : Memory := ofList (written source parsedSource ⟨9, 5, 96⟩)

theorem source_not_restored : WellFormed source 14 ∧
    ¬ Restored source parsedSource ⟨9, 5, 96⟩ default 1 0 rewritten :=
  ⟨by decide, (serialized_not_restored (by decide +kernel)).1⟩

theorem source_misread : WellFormed source 14 ∧
    written source parsedSource ⟨9, 5, 96⟩ = [0x10, 0xE0, 0, 5, 0, 0, 0, 2, 0xAA, 0xBB] ∧
    ¬ Restored source parsedSource ⟨9, 5, 96⟩ default 1 0 rewritten := by
  refine ⟨by decide, by decide +kernel, ?_⟩
  intro h
  exact absurd h.version (by decide +kernel)

end Spadia.Rtp.Serialized
