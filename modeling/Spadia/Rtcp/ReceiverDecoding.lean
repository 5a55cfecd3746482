import Spadia.Rtcp.CommonHeader
import Spadia.Rtcp.Compound
import Spadia.Rtcp.Framing

namespace Spadia.Rtcp.ReceiverDecoding

open Foundation TracedRead Read ByteBuffer Wire.ByteOrder Reports Framing CommonHeader

variable {m : Memory} {data : ℕ}

section Loop

def blockAt (m : Memory) (i : ℕ) : RTCPReceiverReportBlock := ⟨Vector.ofFn fun j ↦ m (i + j)⟩

/-- The blocks that the loop finds from `data` on. -/
def blocksAt (m : Memory) (data count : ℕ) : List RTCPReceiverReportBlock :=
  (List.range count).map fun i ↦ blockAt m (data + 24 * i)

theorem blocksAt_succ (m : Memory) (data count : ℕ) :
    blocksAt m data (count + 1) = blockAt m data :: blocksAt m (data + 24) count := by
  simp only [blocksAt, List.range_succ_eq_map, List.map_cons, List.map_map, Nat.mul_zero,
    Nat.add_zero]
  refine congrArg _ (List.map_congr_left fun i _ ↦ ?_)
  simp only [Function.comp_apply, Nat.succ_eq_add_one]
  congr 1
  omega

theorem parse_block (m : Memory) (data : ℕ) {size : UInt32} (h : 24 ≤ size.toNat)
    (block : RTCPReceiverReportBlock) :
    (block.parse data size).value m = (blockAt m data, 24) ∧
      ∀ n, Inside n (block.parse data size) m ↔ data + 24 ≤ n := by
  have hsize : ¬ size < 24 := by
    rw [UInt32.lt_iff_toNat_lt]
    exact Nat.not_lt.mpr h
  simp only [RTCPReceiverReportBlock.parse, hsize, if_false]
  exact ⟨rfl, fun n ↦ by simp⟩

/-- The rounds of the loop are bounded by the count and by the bytes that are left. -/
theorem parse_blocks (m : Memory) (data : ℕ) {size : ℕ} (hsize : size < 2 ^ 32) (count : ℕ)
    (len : UInt32) (hlen : len.toNat + 24 * count < 2 ^ 32) :
    (parseBlocks data size count len).value m =
        blocksAt m (data + len.toNat) (min count ((size - len.toNat) / 24)) ∧
      Inside (data + size) (parseBlocks data size count len) m := by
  induction count generalizing len with
  | zero => simp [parseBlocks, blocksAt]
  | succ count ih =>
    have hnext : (len + 24).toNat = len.toNat + 24 := by
      rw [UInt32.toNat_add]
      exact Nat.mod_eq_of_lt (by simp; omega)
    by_cases hroom : len.toNat + 24 ≤ size
    · have hguard : ((len + 24).toNat : ℤ) ≤ size := by omega
      have hrest : (UInt32.ofInt (size - len.toNat)).toNat = size - len.toNat := by
        rw [← Int.ofNat_sub (by omega), Compound.ofInt_toNat (by omega)]
      have hblock : 24 ≤ (UInt32.ofInt (size - len.toNat)).toNat := by omega
      obtain ⟨hvalue, hinside⟩ := parse_block m (data + len.toNat) hblock {}
      obtain ⟨ihvalue, ihinside⟩ := ih (len + 24) (by omega)
      have hmin : min (count + 1) ((size - len.toNat) / 24) =
          min count ((size - (len + 24).toNat) / 24) + 1 := by omega
      simp only [parseBlocks, hguard, if_true, value_bind, inside_bind, value_pure, inside_pure,
        hvalue, ihvalue, ihinside, hinside, and_true]
      refine ⟨?_, by omega⟩
      rw [hmin, blocksAt_succ, hnext, Nat.add_assoc]
    · have hguard : ¬ ((len + 24).toNat : ℤ) ≤ size := by omega
      have hmin : min (count + 1) ((size - len.toNat) / 24) = 0 := by omega
      simp only [parseBlocks, hguard, if_false, hmin]
      simp [blocksAt]

end Loop

/-- What `ReceiverReportPacket::Parse` takes for a report: a header, and no more bytes announced
than there are. -/
def Taken (m : Memory) (data size : ℕ) : Prop :=
  4 ≤ size ∧ (RTCPCommonHeader.at m data).length.toNat ≤ size

instance (m : Memory) (data size : ℕ) : Decidable (Taken m data size) :=
  inferInstanceAs (Decidable (_ ∧ _))

def reported (m : Memory) (data size : ℕ) : List RTCPReceiverReportBlock :=
  blocksAt m (data + 8) (min (RTCPCommonHeader.at m data).count.toNat ((size - 8) / 24))

theorem parse_eq {size : ℕ} (hsize : size < 2 ^ 32) (p : ReceiverReportPacket) :
    (p.parse data size).value m =
        (if Taken m data size then
          { ssrc := be32 (m (data + 4)) (m (data + 5)) (m (data + 6)) (m (data + 7))
            reports := p.reports ++ reported m data size }
        else p) ∧
      (Inside (data + size) (p.parse data size) m ↔ (Taken m data size → 8 ≤ size)) := by
  have hofInt := Compound.ofInt_toNat hsize
  by_cases hfour : 4 ≤ size
  · have hheader : 4 ≤ (UInt32.ofInt size).toNat := by omega
    have hcount : (RTCPCommonHeader.at m data).count.toNat ≤ 31 := by
      have hand : (m data &&& 0x1F).toNat ≤ 0x1F := Nat.and_le_right
      exact hand
    obtain ⟨hvalue, hinside⟩ := parse_blocks m data hsize
      (RTCPCommonHeader.at m data).count.toNat (4 + 4) (by simp; omega)
    simp only [ReceiverReportPacket.parse, value_bind, inside_bind, parse_header_value hheader,
      parse_header_inside hheader]
    by_cases hshort : size < (RTCPCommonHeader.at m data).length.toNat
    · have hout : ¬ Taken m data size := fun h ↦ by have := h.2; omega
      simp only [Int.ofNat_lt, hshort, if_true, hout, if_false, value_pure, inside_pure, and_true,
        false_imp_iff, iff_true, true_and]
      omega
    · have htaken : Taken m data size := ⟨hfour, by omega⟩
      simp only [Int.ofNat_lt, hshort, if_false, htaken, if_true, value_bind, inside_bind, hvalue,
        hinside, value_readBE32, inside_readBE32, value_pure, inside_pure, and_true,
        true_imp_iff]
      refine ⟨rfl, ?_⟩
      simp
      omega
  · have hshort : (UInt32.ofInt size).toNat < rtcpCommonHeaderSize := by
      rw [hofInt, rtcpCommonHeaderSize]
      omega
    have hout : ¬ Taken m data size := fun h ↦ hfour h.1
    simp [ReceiverReportPacket.parse, RTCPCommonHeader.parse, hshort, hout]

section Layout

/-- A receiver report with all its blocks behind the sender's number, and words of some extension
behind them. -/
def reportBytes (ssrc : UInt32) (blocks : List RTCPReceiverReportBlock)
    (extension : List UInt8) : List UInt8 :=
  RTCPCommonHeader.serialize
      { count := UInt8.ofNat blocks.length
        packetType := receiverReport
        length := UInt16.ofNat (8 + 24 * blocks.length + extension.length) } ++
    writeBE32 ssrc ++ blockBytes blocks ++ extension

variable {ssrc : UInt32} {blocks : List RTCPReceiverReportBlock} {extension : List UInt8}

theorem length_reportBytes (ssrc : UInt32) (blocks : List RTCPReceiverReportBlock)
    (extension : List UInt8) : (reportBytes ssrc blocks extension).length =
      8 + 24 * blocks.length + extension.length := by
  simp only [reportBytes, List.length_append, length_blockBytes, length_writeBE32,
    RTCPCommonHeader.serialize, length_writeBE16, List.length_cons, List.length_nil]

theorem blockAt_of_stores {b : RTCPReceiverReportBlock} (h : Stores m data b.buffer.toList) :
    blockAt m data = b := by
  rcases b with ⟨buffer⟩
  simp only [blockAt, RTCPReceiverReportBlock.mk.injEq]
  apply Vector.ext
  intro i hi
  rw [Vector.getElem_ofFn, h.getElem (by simpa using hi)]
  simp

theorem blocksAt_of_stores (h : Stores m data (blockBytes blocks)) :
    blocksAt m data blocks.length = blocks := by
  induction blocks generalizing data with
  | nil => rfl
  | cons b blocks ih =>
    rw [blockBytes, List.flatMap_cons, stores_append, Vector.length_toList] at h
    rw [List.length_cons, blocksAt_succ, blockAt_of_stores h.1, ih h.2]

theorem parse_report (hcount : blocks.length ≤ 31) (hwords : extension.length % 4 = 0)
    (hlength : 8 + 24 * blocks.length + extension.length < 65536)
    (h : Stores m data (reportBytes ssrc blocks extension)) (raw : UInt32) :
    ((ReceiverReportPacket.mk raw []).parse data (reportBytes ssrc blocks extension).length).value
      m = ⟨ssrc, blocks⟩ := by
  have hfit := length_reportBytes ssrc blocks extension
  have hnumber : (UInt8.ofNat blocks.length).toNat = blocks.length :=
    UInt8.toNat_ofNat_of_lt' (by simp [UInt8.size]; omega)
  have hbytes : (UInt16.ofNat (8 + 24 * blocks.length + extension.length)).toNat =
      8 + 24 * blocks.length + extension.length :=
    UInt16.toNat_ofNat_of_lt' (by simpa [UInt16.size] using hlength)
  have hvalid : CommonHeader.Valid
      { count := UInt8.ofNat blocks.length
        packetType := receiverReport
        length := UInt16.ofNat (8 + 24 * blocks.length + extension.length) } := by
    refine ⟨rfl, ?_, ?_, ?_⟩
    · rw [hnumber]
      omega
    · rw [hbytes]
      omega
    · rw [hbytes]
      omega
  simp only [reportBytes, stores_append] at h
  obtain ⟨⟨⟨hheader, hssrc⟩, hblocks⟩, -⟩ := h
  have hat := at_stored hvalid hheader
  have htaken : Taken m data (reportBytes ssrc blocks extension).length := by
    refine ⟨by omega, ?_⟩
    rw [hat, hbytes, hfit]
  have hreported : reported m data (reportBytes ssrc blocks extension).length = blocks := by
    have hmin : min blocks.length ((8 + 24 * blocks.length + extension.length - 8) / 24) =
        blocks.length := by omega
    rw [reported, hat, hnumber, hfit, hmin]
    exact blocksAt_of_stores hblocks
  rw [(parse_eq (by omega) _).1, if_pos htaken, hreported, List.nil_append]
  simp only [writeBE32, stores_cons] at hssrc
  obtain ⟨h₀, h₁, h₂, h₃, -⟩ := hssrc
  have hread : be32 (m (data + 4)) (m (data + 5)) (m (data + 6)) (m (data + 7)) = ssrc := by
    rw [← be32_writeBE32 ssrc, ← h₀, ← h₁, ← h₂, ← h₃]
    rfl
  rw [hread]

end Layout

section RoundTrip

theorem size_serialize (p : ReceiverReportPacket) :
    p.serialize.2 = 8 + 24 * min 1 (p.reports.length % 256) := by
  have hcount : (UInt8.ofNat p.reports.length).toNat = p.reports.length % 256 := by simp
  simp only [ReceiverReportPacket.serialize, rtcpCommonHeaderSize, receiverReportSize,
    Nat.reduceAdd, foldl_writeBlock, length_blockBytes, List.length_take, hcount]
  have hle : p.reports.length % 256 ≤ p.reports.length := Nat.mod_le _ _
  omega

/-- What `Serialize` writes is the whole report when there is one block. -/
theorem receiverReportBytes_eq {p : ReceiverReportPacket} (h : p.reports.length = 1) :
    receiverReportBytes p = reportBytes p.ssrc p.reports [] := by
  have hwords : UInt16.ofNat 32 >>> 2 - 1 = 7 := by decide
  rw [receiverReportBytes, reportBytes, h]
  simp only [List.take_of_length_le h.le, List.append_nil]
  rw [← header_serialize _ _ hwords]
  rfl

theorem stores_ofList (l : List UInt8) : Stores (ofList l) 0 l := by
  apply List.ext_getElem
  · simp
  · intro i hi hi'
    simp [ofList, hi']

theorem parse_noBlock (raw ssrc : UInt32) :
    ((ReceiverReportPacket.mk raw []).parse 0 8).value
      (ofList (receiverReportBytes ⟨ssrc, []⟩)) = ⟨raw, []⟩ := by
  have hlength : (RTCPCommonHeader.at (ofList (receiverReportBytes ⟨ssrc, []⟩)) 0).length.toNat =
      32 := by
    change (UInt16.ofNat (((be16 0 7).toNat + 1) <<< 2)).toNat = 32
    decide
  have hout : ¬ Taken (ofList (receiverReportBytes ⟨ssrc, []⟩)) 0 8 := by
    intro h
    have hle := h.2
    rw [hlength] at hle
    omega
  exact (parse_eq (by decide) _).1.trans (if_neg hout)

/-- Whatever the bytes are, 32 of them hold one block at most. -/
theorem length_reports_parse_le (m : Memory) (data : ℕ) {size : ℕ} (h : size ≤ 32)
    (raw : UInt32) :
    (((ReceiverReportPacket.mk raw []).parse data size).value m).reports.length ≤ 1 := by
  rw [(parse_eq (by omega) _).1]
  split
  case isTrue =>
    simp only [List.nil_append, reported, blocksAt, List.length_map, List.length_range]
    omega
  case isFalse => simp

theorem restored_iff (raw : UInt32) (p : ReceiverReportPacket) :
    ((ReceiverReportPacket.mk raw []).parse 0 p.serialize.2).value
      (ofList (written (.receiverReport p))) = p ↔
        p.reports.length = 1 ∨ p.reports = [] ∧ raw = p.ssrc := by
  have hsize := size_serialize p
  by_cases hmany : 2 ≤ p.reports.length
  · refine iff_of_false (fun h ↦ ?_) ?_
    · have hfit : p.serialize.2 ≤ 32 := by omega
      have hle := length_reports_parse_le (ofList (written (.receiverReport p))) 0 hfit raw
      rw [h] at hle
      omega
    · rintro (hone | ⟨hnil, -⟩)
      · omega
      · simp [hnil] at hmany
  · have hserialize := receiverReport_serialize (p := p) (by omega)
    have hwritten : written (.receiverReport p) = receiverReportBytes p := written_eq hserialize
    rw [hwritten, hserialize]
    by_cases hone : p.reports.length = 1
    · refine iff_of_true ?_ (.inl hone)
      rw [receiverReportBytes_eq hone]
      exact parse_report (by omega) rfl (by simp; omega) (stores_ofList _) raw
    · obtain ⟨ssrc, reports⟩ := p
      obtain rfl : reports = [] := List.length_eq_zero_iff.mp (by simp only at hmany hone; omega)
      have hread := parse_noBlock raw ssrc
      have hlength : (receiverReportBytes ⟨ssrc, []⟩).length = 8 := rfl
      rw [hlength]
      simp only [Nat.cast_ofNat, hread, ReceiverReportPacket.mk.injEq, and_true,
        List.length_nil, true_and, Nat.zero_ne_one, false_or]

/-- The private `Parse` against the wire: it decodes every report with all its blocks, reads
outside of a buffer exactly when it takes fewer than eight bytes for a report, and restores what
`Serialize` wrote of a packet if and only if that has one block. -/
theorem receiverReport_decoded (raw : UInt32) :
    (∀ ssrc blocks extension, blocks.length ≤ 31 → extension.length % 4 = 0 →
      8 + 24 * blocks.length + extension.length < 65536 → ∀ m data,
      Stores m data (reportBytes ssrc blocks extension) →
        ((ReceiverReportPacket.mk raw []).parse data
          (reportBytes ssrc blocks extension).length).value m = ⟨ssrc, blocks⟩) ∧
    (∀ m data size, size < 2 ^ 32 →
      (Inside (data + size) ((ReceiverReportPacket.mk raw []).parse data size) m ↔
        (Taken m data size → 8 ≤ size))) ∧
    ∀ p, ((ReceiverReportPacket.mk raw []).parse 0 p.serialize.2).value
      (ofList (written (.receiverReport p))) = p ↔
        p.reports.length = 1 ∨ p.reports = [] ∧ raw = p.ssrc :=
  ⟨fun _ _ _ hcount hwords hlength _ _ h ↦ parse_report hcount hwords hlength h raw,
    fun _ _ _ hsize ↦ (parse_eq hsize _).2, restored_iff raw⟩

theorem twoBlocks_decoded : ((ReceiverReportPacket.mk 0 []).parse 0
    (reportBytes 7 [{}, {}] []).length).value (ofList (reportBytes 7 [{}, {}] [])) =
      ⟨7, [{}, {}]⟩ :=
  (receiverReport_decoded 0).1 7 [{}, {}] [] (by decide) (by decide) (by decide) _ _
    (stores_ofList _)

end RoundTrip

end Spadia.Rtcp.ReceiverDecoding
