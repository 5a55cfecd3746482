import Spadia.Rtp.Packet

namespace Spadia.Rtp.Bounds

open Foundation.TracedRead Read Wire.ByteOrder Packet

variable {m : Memory} {size : ℕ}

/-- The header of an element is read only if the block goes on behind it. -/
theorem extensionLoop_inside {profile : UInt16} {offset capacity : ℕ}
    (hblock : offset + capacity ≤ size) (exts : Std.ExtTreeMap UInt16 RTPExtension) (pos : ℕ) :
    Inside size (extensionLoop profile offset capacity exts pos) m := by
  induction hn : capacity - pos using Nat.strong_induction_on generalizing exts pos with
  | _ n ih =>
    have hpos := extensionHeaderLength_pos profile
    rw [extensionLoop]
    split
    case isFalse => exact inside_pure _
    case isTrue hlt =>
      have hnext (k : ℕ) (hk : 0 < k) (exts : Std.ExtTreeMap UInt16 RTPExtension) :
          Inside size (extensionLoop profile offset capacity exts (pos + k)) m :=
        ih (capacity - (pos + k)) (by omega) exts (pos + k) rfl
      refine (inside_bind _ _).mpr ⟨(inside_byte _).mpr (by omega), ?_⟩
      split
      case isTrue => exact hnext 1 Nat.one_pos _
      case isFalse =>
        split
        case isTrue =>
          simp only [inside_ite]
          exact ⟨fun _ ↦ inside_pure _, fun _ ↦ ⟨fun _ ↦ inside_pure _,
            fun _ ↦ hnext _ (by omega) _⟩⟩
        case isFalse hprofile =>
          have hlength : extensionHeaderLength profile = 2 := if_neg hprofile
          simp only [inside_bind, inside_byte, inside_ite]
          exact ⟨by omega, fun _ ↦ inside_pure _, fun _ ↦ hnext _ (by omega) _⟩

theorem recordExtensions_inside {profile : UInt16} {offset capacity : ℕ}
    (hblock : offset + capacity ≤ size) (exts : Std.ExtTreeMap UInt16 RTPExtension) :
    Inside size (recordExtensions profile offset capacity exts) m := by
  rw [recordExtensions, inside_ite]
  exact ⟨fun _ ↦ inside_pure _, fun _ ↦ extensionLoop_inside hblock exts 0⟩

theorem parseExtension_inside (p : RTPPacket) : Inside size (p.parseExtension size) m := by
  rw [RTPPacket.parseExtension, inside_ite]
  refine ⟨fun _ ↦ inside_pure _, fun hheader ↦ ?_⟩
  simp only [inside_bind, inside_readBE16, inside_ite, inside_pure, and_true]
  refine ⟨by omega, by omega, fun _ ↦ trivial, fun hdata ↦ ?_⟩
  exact recordExtensions_inside (Nat.le_of_not_lt hdata) p.exts

theorem readPaddingSize_inside (hasPadding : Bool) (h : 0 < size) :
    Inside size (readPaddingSize hasPadding size) m := by
  rw [readPaddingSize, inside_ite]
  exact ⟨fun _ ↦ (inside_byte _).mpr (by omega), fun _ ↦ inside_pure _⟩

/-- Whatever the datagram holds, `Parse` comes to an end and reads only its bytes. -/
theorem parse_reads_inside (p : RTPPacket) (data size : ℕ) (m : Memory) :
    Inside size (p.parse data size) m := by
  rw [RTPPacket.parse, inside_ite]
  refine ⟨fun _ ↦ inside_pure _, fun hfixed ↦ ?_⟩
  have hsize : 12 ≤ size := Nat.le_of_not_lt hfixed
  simp only [inside_bind, inside_byte, inside_readBE16, inside_readBE32, inside_ite]
  refine ⟨by omega, fun _ ↦ inside_pure _, fun _ ↦ ⟨by omega, by omega, by omega, by omega,
    fun _ ↦ inside_pure _, fun _ ↦ ⟨readPaddingSize_inside _ (by omega), fun _ ↦ inside_pure _,
    fun _ ↦ ⟨fun _ ↦ parseExtension_inside _, fun _ ↦ inside_pure _⟩⟩⟩⟩

end Spadia.Rtp.Bounds
