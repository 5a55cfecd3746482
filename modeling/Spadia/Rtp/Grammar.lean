import Spadia.Rtp.Packet

namespace Spadia.Rtp.Grammar

open Foundation.TracedRead Read Wire.ByteOrder Packet

variable (m : Memory) (size : ℕ)

def headerSize : ℕ := 12 + 4 * (m 0 &&& 0x0f).toNat

def HasPadding : Prop := m 0 &&& 0x20 ≠ 0

def HasExtension : Prop := m 0 &&& 0x10 ≠ 0

instance : Decidable (HasPadding m) := inferInstanceAs (Decidable (_ ≠ _))

instance : Decidable (HasExtension m) := inferInstanceAs (Decidable (_ ≠ _))

def extensionCapacity : ℕ := 4 * (be16 (m (headerSize m + 2)) (m (headerSize m + 3))).toNat

def extensionSize : ℕ := if HasExtension m then 4 + extensionCapacity m else 0

def paddingSize : ℕ := if HasPadding m then (m (size - 1)).toNat else 0

/-- The fixed header and the list of contributing sources lie inside the datagram. -/
structure HeaderFits : Prop where
  fixed : 12 ≤ size
  version : m 0 >>> 6 = 2
  csrc : headerSize m ≤ size

/-- The RTP grammar of the packet diagram, part by part. -/
structure WellFormed : Prop extends HeaderFits m size where
  extensionHeader : HasExtension m → headerSize m + 4 ≤ size
  extensionData : HasExtension m → headerSize m + 4 + extensionCapacity m ≤ size
  padded : HasPadding m → m (size - 1) ≠ 0
  fits : headerSize m + extensionSize m + paddingSize m size ≤ size

theorem headerFits_iff : HeaderFits m size ↔
    12 ≤ size ∧ m 0 >>> 6 = 2 ∧ headerSize m ≤ size :=
  ⟨fun h ↦ ⟨h.1, h.2, h.3⟩, fun h ↦ ⟨h.1, h.2.1, h.2.2⟩⟩

theorem wellFormed_iff : WellFormed m size ↔ HeaderFits m size ∧
    (HasExtension m → headerSize m + 4 ≤ size) ∧
    (HasExtension m → headerSize m + 4 + extensionCapacity m ≤ size) ∧
    (HasPadding m → m (size - 1) ≠ 0) ∧
    headerSize m + extensionSize m + paddingSize m size ≤ size :=
  ⟨fun h ↦ ⟨h.1, h.2, h.3, h.4, h.5⟩, fun h ↦ ⟨h.1, h.2.1, h.2.2.1, h.2.2.2.1, h.2.2.2.2⟩⟩

instance : Decidable (HeaderFits m size) := decidable_of_iff _ (headerFits_iff m size).symm

instance : Decidable (WellFormed m size) := decidable_of_iff _ (wellFormed_iff m size).symm

variable {m size}

theorem finish_accepts (p : RTPPacket) :
    (p.finish size).1 = true ↔ p.payloadOffset + p.paddingSize ≤ size := by
  unfold RTPPacket.finish
  split <;> simp <;> omega

def extensionProfile (m : Memory) : UInt16 := be16 (m (headerSize m)) (m (headerSize m + 1))

theorem parseExtension_value (p : RTPPacket) (hp : p.payloadOffset = headerSize m) :
    (p.parseExtension size).value m =
      if headerSize m + 4 + extensionCapacity m ≤ size then
        RTPPacket.finish { p with
          exts := (recordExtensions (extensionProfile m) (headerSize m + 4)
            (extensionCapacity m) p.exts).value m
          payloadOffset := headerSize m + 4 + extensionCapacity m } size
      else (false, p) := by
  have hcap : (be16 (m (headerSize m + 2)) (m (headerSize m + 2 + 1))).toNat * 4 =
      extensionCapacity m := Nat.mul_comm _ _
  simp only [RTPPacket.parseExtension, value_ite, value_bind, value_pure, value_readBE16, hp, hcap]
  split
  · rw [if_neg (by omega)]
  · split
    · rw [if_neg (by omega)]
    · rw [if_pos (by omega)]
      rfl

theorem parseExtension_accepts (p : RTPPacket) (hp : p.payloadOffset = headerSize m) :
    ((p.parseExtension size).value m).1 = true ↔
      headerSize m + 4 + extensionCapacity m + p.paddingSize ≤ size := by
  rw [parseExtension_value p hp]
  split
  · rw [finish_accepts]
  · simp; omega

def parsedHeader (p : RTPPacket) (data size : ℕ) (m : Memory) : RTPPacket :=
  { p with
    data := data
    size := size
    maker := m 1 &&& 0x80 ≠ 0
    payloadType := m 1 &&& 0x7f
    seqNum := be16 (m 2) (m 3)
    timestamp := be32 (m 4) (m 5) (m 6) (m 7)
    ssrc := be32 (m 8) (m 9) (m 10) (m 11)
    payloadOffset := headerSize m
    paddingSize := paddingSize m size }

theorem readPaddingSize_value : (readPaddingSize (m 0 &&& 0x20 ≠ 0) size).value m =
    if HasPadding m then m (size - 1) else 0 := by
  by_cases h : HasPadding m <;> simp_all [readPaddingSize, HasPadding]

theorem headerSize_eq : kFixedHeaderSize + (m 0 &&& 0x0f).toNat * 4 = headerSize m := by
  simp only [headerSize, kFixedHeaderSize, Nat.mul_comm]

theorem parse_value (p : RTPPacket) (data : ℕ) (h : HeaderFits m size) :
    (p.parse data size).value m =
      if HasPadding m ∧ m (size - 1) = 0 then (false, parsedHeader p data size m)
      else if HasExtension m then ((parsedHeader p data size m).parseExtension size).value m
      else (parsedHeader p data size m).finish size := by
  obtain ⟨h₁, h₂, h₃⟩ := h
  have hcc : ¬ size < headerSize m := by omega
  have hfix : ¬ size < kFixedHeaderSize := by simp only [kFixedHeaderSize]; omega
  have hpad : (if HasPadding m then m (size - 1) else 0).toNat = paddingSize m size := by
    unfold paddingSize; split <;> rfl
  simp only [RTPPacket.parse, value_ite, value_bind, value_pure, value_readBE16, value_readBE32,
    value_byte, headerSize_eq, hcc, hfix, h₂, kRtpVersion, ne_eq, not_true_eq_false, if_false,
    readPaddingSize_value, hpad]
  refine if_congr ?_ rfl (if_congr ?_ rfl rfl)
  · by_cases hp : HasPadding m <;> simp_all [HasPadding]
  · simp [HasExtension]

theorem parse_accepts (p : RTPPacket) (data : ℕ) (h : HeaderFits m size) :
    ((p.parse data size).value m).1 = true ↔ WellFormed m size := by
  rw [parse_value p data h, wellFormed_iff]
  by_cases hp : HasPadding m ∧ m (size - 1) = 0
  · simp [hp]
  · have hpad : HasPadding m → m (size - 1) ≠ 0 := fun h₁ h₂ ↦ hp ⟨h₁, h₂⟩
    by_cases he : HasExtension m
    · rw [if_neg hp, if_pos he, parseExtension_accepts _ rfl]
      simp only [he, h, true_and, forall_const, extensionSize, if_true, parsedHeader]
      constructor
      · intro hfit
        exact ⟨by omega, by omega, hpad, by omega⟩
      · omega
    · rw [if_neg hp, if_neg he, finish_accepts]
      simp only [he, h, true_and, IsEmpty.forall_iff, extensionSize, if_false, Nat.add_zero,
        parsedHeader]
      exact ⟨fun hfit ↦ ⟨hpad, hfit⟩, fun hfit ↦ hfit.2⟩

/-- The three exits before the fixed header has been read all answer `true`, and they leave the
extensions alone. -/
theorem parse_early (p : RTPPacket) (data : ℕ) (h : ¬ HeaderFits m size) :
    ((p.parse data size).value m).1 = true ∧ ((p.parse data size).value m).2.exts = p.exts := by
  rw [headerFits_iff] at h
  simp only [RTPPacket.parse, value_ite, value_bind, value_pure, value_byte, kRtpVersion,
    headerSize_eq, boolOfInt]
  split
  · exact ⟨rfl, rfl⟩
  · next h₁ =>
    split
    · exact ⟨rfl, rfl⟩
    · next h₂ =>
      have h₃ : size < headerSize m := by
        by_contra h₃
        exact h ⟨Nat.le_of_not_lt h₁, not_not.mp h₂, Nat.le_of_not_lt h₃⟩
      simp [h₃]

/-- `Parse` answers as the grammar does exactly when the fixed header is in order: a shorter
buffer, another version or a truncated source list is accepted instead of rejected. -/
theorem parse_decides_grammar_iff (m : Memory) (size : ℕ) (p : RTPPacket) (data : ℕ) :
    (((p.parse data size).value m).1 = true ↔ WellFormed m size) ↔ HeaderFits m size := by
  by_cases h : HeaderFits m size
  · simp only [h, parse_accepts p data h]
  · have hw : ¬ WellFormed m size := fun hw ↦ h hw.toHeaderFits
    simp [h, hw, (parse_early p data h).1]

theorem parse_accepts_single_byte :
    ((RTPPacket.parse default 0 1).value fun _ ↦ 0).1 = true ∧ ¬ WellFormed (fun _ ↦ 0) 1 := by
  decide

end Spadia.Rtp.Grammar
