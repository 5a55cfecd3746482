import Spadia.Rtcp.Reports

namespace Spadia.Rtcp.CommonHeader

open Foundation.TracedRead Read Wire.ByteOrder Reports

/-- A header that the wire can express: two bits of version, five of count, and a length in
whole words. -/
structure Valid (h : RTCPCommonHeader) : Prop where
  version : h.version = 2
  count_lt : h.count.toNat < 32
  length_mod : h.length.toNat % 4 = 0
  length_pos : 4 ≤ h.length.toNat

def words (m : Memory) (data : ℕ) : ℕ := (be16 (m (data + 2)) (m (data + 3))).toNat

variable {m : Memory} {data : ℕ}

section FirstByte

theorem firstByte_written (padding : Bool) {count : UInt8} (hcount : count.toNat < 32) :
    let b : UInt8 := (if padding then 0xA0 else 0x80) ||| (count &&& 0x1F)
    b >>> 6 = 2 ∧ b &&& 0x1F = count ∧
      decide ((b >>> 4) &&& 0x01 ≠ 0) = decide (16 ≤ count.toNat) := by
  have hall : ∀ (padding : Bool) (n : Fin 32),
      let b : UInt8 := (if padding then 0xA0 else 0x80) ||| (UInt8.ofNat n &&& 0x1F)
      b >>> 6 = 2 ∧ b &&& 0x1F = UInt8.ofNat n ∧
        decide ((b >>> 4) &&& 0x01 ≠ 0) = decide (16 ≤ n.val) := by
    decide
  have h := hall padding ⟨count.toNat, hcount⟩
  rwa [UInt8.ofNat_toNat] at h

theorem firstByte_rewritten {b : UInt8} (hversion : b >>> 6 = 2) :
    (if decide ((b >>> 4) &&& 0x01 ≠ 0) then (0xA0 : UInt8) else 0x80) |||
      ((b &&& 0x1F) &&& 0x1F) = b ↔ (b &&& 0x20 ≠ 0 ↔ b &&& 0x10 ≠ 0) := by
  have hall : ∀ n : Fin 256, UInt8.ofNat n >>> 6 = 2 →
      ((if decide ((UInt8.ofNat n >>> 4) &&& 0x01 ≠ 0) then (0xA0 : UInt8) else 0x80) |||
        ((UInt8.ofNat n &&& 0x1F) &&& 0x1F) = UInt8.ofNat n ↔
          (UInt8.ofNat n &&& 0x20 ≠ 0 ↔ UInt8.ofNat n &&& 0x10 ≠ 0)) := by
    decide +kernel
  have h := hall ⟨b.toNat, b.toNat_lt⟩
  rw [UInt8.ofNat_toNat] at h
  exact h hversion

end FirstByte

section Length

theorem toNat_words {length : UInt16} (h : 4 ≤ length.toNat) :
    (length >>> 2 - 1).toNat = length.toNat / 4 - 1 := by
  have hshift : (length >>> 2).toNat = length.toNat / 4 := by
    simp [UInt16.toNat_shiftRight, Nat.shiftRight_eq_div_pow]
  have hle : (1 : UInt16) ≤ length >>> 2 := by
    rw [UInt16.le_iff_toNat_le, hshift]
    simp
    omega
  rw [UInt16.toNat_sub_of_le _ _ hle, hshift]
  rfl

theorem length_restored {length : UInt16} (hmod : length.toNat % 4 = 0) (hpos : 4 ≤ length.toNat) :
    UInt16.ofNat (((length >>> 2 - 1).toNat + 1) <<< 2) = length := by
  have hlt := length.toNat_lt
  apply UInt16.toNat_inj.mp
  rw [UInt16.toNat_ofNat', toNat_words hpos, Nat.shiftLeft_eq]
  omega

theorem length_read_iff {n : ℕ} (hn : n < 65536) :
    (UInt16.ofNat ((n + 1) <<< 2)).toNat = 4 * (n + 1) ↔ n ≤ 16382 := by
  rw [UInt16.toNat_ofNat', Nat.shiftLeft_eq]
  omega

theorem words_restored {w : UInt16} (hw : w.toNat ≤ 16382) :
    UInt16.ofNat ((w.toNat + 1) <<< 2) >>> 2 - 1 = w := by
  have hlength := (length_read_iff w.toNat_lt).mpr hw
  apply UInt16.toNat_inj.mp
  rw [toNat_words (by omega), hlength]
  omega

end Length

theorem at_stored {h : RTCPCommonHeader} (hvalid : Valid h) (hs : Stores m data h.serialize) :
    RTCPCommonHeader.at m data = { h with padding := decide (16 ≤ h.count.toNat) } := by
  obtain ⟨hversion, hcount, hpadding⟩ := firstByte_written h.padding hvalid.count_lt
  simp only [RTCPCommonHeader.serialize, writeBE16, List.cons_append, List.nil_append, stores_cons,
    Nat.add_assoc, Nat.reduceAdd] at hs
  obtain ⟨h₀, h₁, h₂, h₃, -⟩ := hs
  rw [RTCPCommonHeader.at, h₀, h₁, h₂, h₃, be16_writeBE16, hversion, hcount, hpadding,
    length_restored hvalid.length_mod hvalid.length_pos, ← hvalid.version]

/-- The header is read back with the highest bit of the count for its padding flag. -/
theorem parse_restores_iff {h : RTCPCommonHeader} (hvalid : Valid h) {size : UInt32}
    (hsize : 4 ≤ size.toNat) (hs : Stores m data h.serialize) :
    (RTCPCommonHeader.parse data size).value m = some h ↔
      (h.padding = true ↔ 16 ≤ h.count.toNat) := by
  rw [parse_header_value hsize, at_stored hvalid hs, Option.some.injEq]
  obtain ⟨count, padding, version, packetType, length⟩ := h
  simp only [RTCPCommonHeader.mk.injEq, true_and, and_true]
  rw [eq_comm, Bool.eq_iff_iff, decide_eq_true_iff]

/-- `Parse` gives the length in bytes, and `Serialize` writes the four bytes again. -/
def Rewritten (m : Memory) (data : ℕ) (size : UInt32) : Prop :=
  ∃ h, (RTCPCommonHeader.parse data size).value m = some h ∧
    h.length.toNat = 4 * (words m data + 1) ∧
    h.serialize = [m data, m (data + 1), m (data + 2), m (data + 3)]

theorem serialize_at (m : Memory) (data : ℕ) : (RTCPCommonHeader.at m data).serialize =
    [(if decide ((m data >>> 4) &&& 0x01 ≠ 0) then (0xA0 : UInt8) else 0x80) |||
        ((m data &&& 0x1F) &&& 0x1F), m (data + 1)] ++
      writeBE16 (UInt16.ofNat (((be16 (m (data + 2)) (m (data + 3))).toNat + 1) <<< 2) >>> 2 - 1) :=
  (rfl)

theorem rewritten_iff {size : UInt32} (hsize : 4 ≤ size.toNat) (hversion : m data >>> 6 = 2) :
    Rewritten m data size ↔
      (m data &&& 0x20 ≠ 0 ↔ m data &&& 0x10 ≠ 0) ∧ words m data ≤ 16382 := by
  have hlength := length_read_iff (be16 (m (data + 2)) (m (data + 3))).toNat_lt
  have hfirst := firstByte_rewritten hversion
  rw [Rewritten, parse_header_value hsize]
  constructor
  · intro h
    obtain ⟨h, hparse, hbytes, hserialize⟩ := h
    cases hparse
    exact ⟨hfirst.mp (List.head_eq_of_cons_eq hserialize), hlength.mp hbytes⟩
  · intro h
    obtain ⟨hbits, hwords⟩ := h
    refine ⟨_, rfl, hlength.mpr hwords, ?_⟩
    rw [serialize_at, words_restored hwords, writeBE16_be16, hfirst.mpr hbits]
    rfl

/-- A header goes to the wire and back exactly if its padding flag is the highest bit of its
count; four bytes of the wire come back exactly if, besides, the length has 16 bits. -/
theorem header_roundtrip_iff (m : Memory) (data : ℕ) {size : UInt32} (hsize : 4 ≤ size.toNat) :
    (∀ h : RTCPCommonHeader, Valid h → Stores m data h.serialize →
      ((RTCPCommonHeader.parse data size).value m = some h ↔
        (h.padding = true ↔ 16 ≤ h.count.toNat))) ∧
    (m data >>> 6 = 2 → (Rewritten m data size ↔
      (m data &&& 0x20 ≠ 0 ↔ m data &&& 0x10 ≠ 0) ∧ words m data ≤ 16382)) :=
  ⟨fun _ hvalid hs ↦ parse_restores_iff hvalid hsize hs, rewritten_iff hsize⟩

def reportHeader : RTCPCommonHeader := { count := 1, packetType := 201, length := 32 }

theorem reportHeader_roundtrip : Valid reportHeader ∧
    (RTCPCommonHeader.parse 0 4).value (ofList reportHeader.serialize) = some reportHeader ∧
    Rewritten (ofList [0x81, 201, 0, 7]) 0 4 := by
  have hvalid : Valid reportHeader := ⟨rfl, by decide, rfl, by decide⟩
  refine ⟨hvalid, ?_, ?_⟩
  · exact ((header_roundtrip_iff _ _ (by decide)).1 _ hvalid (by decide)).mpr (by decide)
  · exact ((header_roundtrip_iff _ _ (by decide)).2 (by decide)).mpr (by decide)

def paddedHeader : RTCPCommonHeader := { reportHeader with padding := true }

/-- A padding flag that is lost, sixteen blocks that are taken for padding, and 65536 bytes that
are read as none. -/
theorem header_misread : Valid paddedHeader ∧ reportHeader ≠ paddedHeader ∧
    (RTCPCommonHeader.parse 0 4).value (ofList paddedHeader.serialize) = some reportHeader ∧
    ((RTCPCommonHeader.parse 0 4).value (ofList [0x90, 201, 0, 7])).map RTCPCommonHeader.serialize =
      some [0xB0, 201, 0, 7] ∧
    ¬ Rewritten (ofList [0x90, 201, 0, 7]) 0 4 ∧
    ((RTCPCommonHeader.parse 0 4).value (ofList [0x81, 201, 0x3F, 0xFF])).map
      RTCPCommonHeader.length = some 0 ∧
    ¬ Rewritten (ofList [0x81, 201, 0x3F, 0xFF]) 0 4 := by
  refine ⟨⟨rfl, by decide, rfl, by decide⟩, by decide, by decide, by decide, ?_, by decide, ?_⟩
  · rw [rewritten_iff (by decide) (by decide)]
    decide
  · rw [rewritten_iff (by decide) (by decide)]
    decide

end Spadia.Rtcp.CommonHeader
