import Spadia.Rtcp.Reports

namespace Spadia.Rtcp.Framing

open Foundation TracedRead Read ByteBuffer Wire.ByteOrder Reports

/-- `Serialize` of the objects that carry report blocks. -/
def serialize : RTCPPacketInterface → Buffer × ℕ
  | .sendReport p => p.serialize
  | .receiverReport p => p.serialize

def blocks : RTCPPacketInterface → List RTCPReceiverReportBlock
  | .sendReport p => p.reports
  | .receiverReport p => p.reports

def fixedSize : RTCPPacketInterface → ℕ
  | .sendReport _ => 28
  | .receiverReport _ => 8

def written (r : RTCPPacketInterface) : List UInt8 := bytes (serialize r).1 0 (serialize r).2

def blockBytes (l : List RTCPReceiverReportBlock) : List UInt8 := l.flatMap fun b ↦ b.buffer.toList

/-- The length field covers what was written, the count is the number of blocks, and the
blocks follow the fixed part. -/
structure Framed (r : RTCPPacketInterface) : Prop where
  size_eq : (serialize r).2 =
    4 * ((be16 ((written r).getD 2 0) ((written r).getD 3 0)).toNat + 1)
  count_eq : ((written r).getD 0 0 &&& 0x1F).toNat = (blocks r).length
  body_eq : (written r).drop (fixedSize r) = blockBytes (blocks r)

/-- A sender report without blocks or a receiver report with a single one. -/
def FillsPacket : RTCPPacketInterface → Prop
  | .sendReport p => p.reports = []
  | .receiverReport p => p.reports.length = 1

theorem length_blockBytes (l : List RTCPReceiverReportBlock) :
    (blockBytes l).length = 24 * l.length := by
  induction l with
  | nil => rfl
  | cons b l ih =>
    simp only [blockBytes, List.flatMap_cons, List.length_append, Vector.length_toList,
      List.length_cons] at ih ⊢
    omega

theorem written_eq {r : RTCPPacketInterface} {l : List UInt8}
    (h : serialize r = (write malloc 0 l, l.length)) : written r = l := by
  rw [written, h]
  exact bytes_write malloc 0 l

theorem header_serialize (count type : UInt8) {length words : UInt16}
    (h : length >>> 2 - 1 = words) :
    RTCPCommonHeader.serialize { count := count, packetType := type, length := length } =
      [0x80 ||| (count &&& 0x1F), type] ++ writeBE16 words := by
  subst h
  rfl

def sendReportBytes (p : SendReportPacket) : List UInt8 :=
  [0x80 ||| (UInt8.ofNat p.reports.length &&& 0x1F), senderReport] ++ writeBE16 6 ++
    (writeBE32 p.ssrc ++ writeBE32 p.ntpSec ++ writeBE32 p.ntpFrac ++
      writeBE32 p.rtpTimestamp ++ writeBE32 p.packetsSent ++ writeBE32 p.octectsSent)

theorem sendReport_serialize (p : SendReportPacket) :
    p.serialize = (write malloc 0 (sendReportBytes p), 28) := by
  have hwords : UInt16.ofNat (4 + senderReportSize) >>> 2 - 1 = 6 := by decide
  simp only [SendReportPacket.serialize, rtcpCommonHeaderSize, Nat.reduceAdd,
    header_serialize _ _ hwords]
  rw [write_end, write_end, write_end, write_end, write_end, write_end] <;> rfl

/-- The first block fills the packet; no later one is written. -/
def receiverReportBytes (p : ReceiverReportPacket) : List UInt8 :=
  [0x80 ||| (UInt8.ofNat p.reports.length &&& 0x1F), receiverReport] ++ writeBE16 7 ++
    writeBE32 p.ssrc ++ blockBytes (p.reports.take 1)

theorem foldl_writeBlock_full (b : Buffer) (l : List RTCPReceiverReportBlock) :
    l.foldl (writeBlock 32) (b, 32) = (b, 32) := by
  induction l with
  | nil => rfl
  | cons block l ih => exact ih

theorem foldl_writeBlock (b : Buffer) (l : List RTCPReceiverReportBlock) :
    l.foldl (writeBlock 32) (b, 8) =
      (write b 8 (blockBytes (l.take 1)), 8 + (blockBytes (l.take 1)).length) := by
  cases l with
  | nil => simp [blockBytes]
  | cons block l =>
    have hfirst : writeBlock 32 (b, 8) block = (write b 8 block.buffer.toList, 32) := rfl
    rw [List.foldl_cons, hfirst, foldl_writeBlock_full, length_blockBytes]
    simp [blockBytes]

theorem receiverReport_serialize {p : ReceiverReportPacket} (h : p.reports.length < 256) :
    p.serialize = (write malloc 0 (receiverReportBytes p), (receiverReportBytes p).length) := by
  have hcount : p.reports.take (UInt8.ofNat p.reports.length).toNat = p.reports := by
    rw [UInt8.toNat_ofNat_of_lt' h, List.take_length]
  have hwords : UInt16.ofNat 32 >>> 2 - 1 = 7 := by decide
  simp only [ReceiverReportPacket.serialize, rtcpCommonHeaderSize, receiverReportSize,
    Nat.reduceAdd, hcount, header_serialize _ _ hwords, foldl_writeBlock]
  rw [write_end, write_end, receiverReportBytes]
  · simp only [List.length_append, length_writeBE16, length_writeBE32, List.length_cons,
      List.length_nil]
  · rfl
  · rfl

theorem first_byte {n : ℕ} (h : n ≤ 31) :
    ((0x80 ||| (UInt8.ofNat n &&& 0x1F)) &&& 0x1F : UInt8).toNat = n := by
  have hall : ∀ i : Fin 32, ((0x80 ||| (UInt8.ofNat i &&& 0x1F)) &&& 0x1F : UInt8).toNat = i := by
    decide
  exact hall ⟨n, by omega⟩

theorem sendReport_framed_iff {p : SendReportPacket} (h : p.reports.length ≤ 31) :
    Framed (.sendReport p) ↔ p.reports = [] := by
  have hwritten : written (.sendReport p) = sendReportBytes p :=
    written_eq (sendReport_serialize p)
  constructor
  · intro h
    obtain ⟨-, -, hbody⟩ := h
    have hlength := congrArg List.length hbody
    rw [hwritten, List.length_drop, length_blockBytes] at hlength
    have hzero : 0 = 24 * p.reports.length := hlength
    exact List.length_eq_zero_iff.mp (by omega)
  · intro hnil
    refine ⟨?_, ?_, ?_⟩
    · have hfield : be16 ((sendReportBytes p).getD 2 0) ((sendReportBytes p).getD 3 0) = 6 :=
        be16_writeBE16 6
      rw [hwritten, serialize, sendReport_serialize, hfield]
      rfl
    · rw [hwritten]
      exact first_byte h
    · rw [hwritten, blocks, hnil]
      rfl

theorem receiverReport_framed_iff {p : ReceiverReportPacket} (h : p.reports.length ≤ 31) :
    Framed (.receiverReport p) ↔ p.reports.length = 1 := by
  have hserialize := receiverReport_serialize (p := p) (by omega)
  have hwritten : written (.receiverReport p) = receiverReportBytes p := written_eq hserialize
  have hlength : (receiverReportBytes p).length = 8 + 24 * min 1 p.reports.length := by
    simp [receiverReportBytes, length_blockBytes]
    omega
  have hfield : be16 ((receiverReportBytes p).getD 2 0) ((receiverReportBytes p).getD 3 0) = 7 :=
    be16_writeBE16 7
  constructor
  · intro h
    obtain ⟨hsize, -, hbody⟩ := h
    have hbody := congrArg List.length hbody
    rw [hwritten, List.length_drop, length_blockBytes, hlength] at hbody
    rw [hwritten, serialize, hserialize, hlength, hfield] at hsize
    simp only [fixedSize, blocks] at hbody
    have hwords : 8 + 24 * min 1 p.reports.length = 32 := hsize
    omega
  · intro hone
    refine ⟨?_, ?_, ?_⟩
    · rw [hwritten, serialize, hserialize, hlength, hone, hfield]
      rfl
    · rw [hwritten]
      exact first_byte h
    · rw [hwritten, blocks, ← List.take_of_length_le hone.le]
      rfl

theorem framed_iff (r : RTCPPacketInterface) (h : (blocks r).length ≤ 31) :
    Framed r ↔ FillsPacket r := by
  cases r with
  | sendReport p => exact sendReport_framed_iff h
  | receiverReport p => exact receiverReport_framed_iff h

theorem oneBlock_framed : (blocks (.receiverReport ⟨7, [{}]⟩)).length ≤ 31 ∧
    Framed (.receiverReport ⟨7, [{}]⟩) :=
  ⟨by decide, (framed_iff (.receiverReport ⟨7, [{}]⟩) (by decide)).mpr rfl⟩

/-- A sender report with a block leaves it out; a receiver report without a block says that
it has one, and with two blocks it leaves one out. -/
theorem blocks_misframed : ¬ Framed (.sendReport { reports := [{}] }) ∧
    ¬ Framed (.receiverReport ⟨7, []⟩) ∧ ¬ Framed (.receiverReport ⟨7, [{}, {}]⟩) := by
  refine ⟨fun h ↦ ?_, fun h ↦ ?_, fun h ↦ ?_⟩
  · exact absurd ((sendReport_framed_iff (by decide)).mp h) (by decide)
  · exact absurd ((receiverReport_framed_iff (by decide)).mp h) (by decide)
  · exact absurd ((receiverReport_framed_iff (by decide)).mp h) (by decide)

/-- The constructor reads nothing of what `Serialize` wrote. -/
theorem receiverReport_restored_iff (raw : UInt32) (p : ReceiverReportPacket) :
    (ReceiverReportPacket.create raw 0 p.serialize.2).value (ofList (written (.receiverReport p))) =
      p ↔ p.reports = [] ∧ raw = p.ssrc := by
  rw [ReceiverReportPacket.create, value_pure]
  constructor
  · rintro rfl
    exact ⟨rfl, rfl⟩
  · intro h
    obtain ⟨hreports, rfl⟩ := h
    rw [← hreports]

theorem oneBlock_lost : (ReceiverReportPacket.create 7 0
      (ReceiverReportPacket.serialize ⟨7, [{}]⟩).2).value
    (ofList (written (.receiverReport ⟨7, [{}]⟩))) ≠ ⟨7, [{}]⟩ := by
  decide

end Spadia.Rtcp.Framing
