import Spadia.Rtcp.FeedbackFraming
import Spadia.TransportCC.ChunkReading
import Spadia.Wire.ByteIO

namespace Spadia.TransportCC.Shifted

open Foundation TracedRead Read DeltaClock ByteBuffer Wire.ByteOrder Feedback PacketStatus
open DraftLayout Encoding Serialized Decoding Offset ChunkReading

def store (base : UInt32) (i : ℕ) (packets : Std.ExtTreeMap UInt32 UInt64) :
    List UInt64 → Std.ExtTreeMap UInt32 UInt64
  | [] => packets
  | u :: l => store base (i + 1) (packets.insert (base + UInt32.ofNat i) u) l

section Loop

variable {data : ℕ} {size : ℤ} {base : UInt32} {count : ℕ} {statuses : List PacketStatus}
variable {m : Memory}

/-- The reader of a large delta is `ByteReader<short>`. -/
theorem readSigned_readShort (pos : ℕ) (m : Memory) :
    ∃ v, Wire.ByteIO.readSigned .big (fun i ↦ m (pos + i)) (Wire.ByteIO.sized_self 2) = some v ∧
      (readShort pos).value m = v.toInt := by
  refine ⟨((readBE16 pos).value m).toBitVec, ?_, ?_⟩
  · rw [Wire.ByteIO.value_readBE16_eq, Wire.ByteIO.readSigned, if_neg (Nat.lt_irrefl 2),
      Wire.ByteIO.reinterpretAsSigned_eq]
  · have hlt := ((readBE16 pos).value m).toNat_lt
    rw [readShort, value_bind, value_pure, BitVec.toInt_eq_toNat_cond, UInt16.toNat_toBitVec]
    unfold int16
    split <;> omega

end Loop

section Store

variable (base : UInt32) {i j : ℕ} (packets : Std.ExtTreeMap UInt32 UInt64)

end Store

section Message

variable {fb : TransportCCFeedBack} {k n t pad : ℕ} {m : Memory} {data : ℕ}

end Message

end Spadia.TransportCC.Shifted
