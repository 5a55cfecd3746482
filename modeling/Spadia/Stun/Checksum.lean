import Spadia.Foundation.ReflectedCrc
import Spadia.Stun.Crc32

namespace Spadia.Stun.Checksum

open Foundation.ReflectedCrc Crc32

def polynomial : BitVec 32 := 0xEDB88320#32

/-- The reflected CRC-32 of a list of bytes, bit by bit, without the mask of a fingerprint. -/
def crc32 (data : List UInt8) : UInt32 :=
  ⟨(data.flatMap fun b ↦ lowBits 8 b.toBitVec).foldl (feed polynomial) 0xFFFFFFFF#32 ^^^
    0xFFFFFFFF#32⟩

theorem low_bit_iff (c : UInt32) : c &&& 1 ≠ 0 ↔ c.toBitVec.getLsbD 0 = true := by
  have hbit : c.toBitVec.getLsbD 0 = decide (c.toNat % 2 = 1) := Nat.testBit_zero c.toNat
  have hand : (c &&& 1).toNat = c.toNat % 2 := by
    rw [UInt32.toNat_and]
    exact Nat.and_one_is_mod c.toNat
  rw [hbit, decide_eq_true_eq, ne_eq, ← UInt32.toNat_inj, hand]
  simp only [UInt32.reduceToNat]
  omega

theorem toBitVec_tableStep (c : UInt32) :
    (tableStep c).toBitVec = divStep polynomial c.toBitVec := by
  unfold tableStep divStep
  by_cases h : c.toBitVec.getLsbD 0 = true
  · rw [if_pos ((low_bit_iff c).mpr h), if_pos h, UInt32.toBitVec_xor, BitVec.xor_comm]
    rfl
  · rw [if_neg fun h' ↦ h ((low_bit_iff c).mp h'), if_neg h]
    rfl

theorem toBitVec_table (i : UInt32) :
    (table i).toBitVec = (divStep polynomial)^[8] i.toBitVec := by
  have hfold (n : ℕ) : ((List.range n).foldl (fun c _ ↦ tableStep c) i).toBitVec =
      (divStep polynomial)^[n] i.toBitVec := by
    induction n with
    | zero => rfl
    | succ n ih =>
      rw [List.range_succ, List.foldl_append, List.foldl_cons, List.foldl_nil, toBitVec_tableStep,
        ih, Function.iterate_succ_apply']
  exact hfold 8

theorem mask_bits : ∀ i < 32, (0xFF#32).getLsbD i = decide (i < 8) := by decide

theorem lowBits_byte (b : UInt8) : lowBits 8 b.toBitVec = lowBits 8 b.toUInt32.toBitVec := by
  refine List.map_congr_left fun i hi ↦ ?_
  rw [UInt8.toBitVec_toUInt32, BitVec.getLsbD_setWidth]
  have hi' : i < 32 := by
    have := List.mem_range.mp hi
    omega
  simp [hi']

theorem toBitVec_crcStep (c : UInt32) (b : UInt8) :
    (crcStep c b).toBitVec = (lowBits 8 b.toBitVec).foldl (feed polynomial) c.toBitVec := by
  have hshort : b.toUInt32.toBitVec >>> 8 = 0 := by
    rw [UInt8.toBitVec_toUInt32]
    apply BitVec.eq_of_toNat_eq
    have hlt := b.toNat_lt
    simp [Nat.shiftRight_eq_div_pow]
    omega
  rw [lowBits_byte, foldl_feed 8 _ hshort, iterate_divStep_split 8 mask_bits, crcStep,
    UInt32.toBitVec_xor, toBitVec_table, BitVec.ushiftRight_xor_distrib, hshort]
  exact congrArg _ BitVec.xor_zero.symm

theorem toBitVec_foldl_crcStep (data : List UInt8) (c : UInt32) :
    (data.foldl crcStep c).toBitVec =
      (data.flatMap fun b ↦ lowBits 8 b.toBitVec).foldl (feed polynomial) c.toBitVec := by
  induction data generalizing c with
  | nil => rfl
  | cons b data ih =>
    rw [List.foldl_cons, ih, List.flatMap_cons, List.foldl_append, toBitVec_crcStep]

theorem calculateXORCRC_eq (data : List UInt8) :
    calculateXORCRC data = crc32 data ^^^ 0x5354554e := by
  have hfold : data.foldl crcStep ((0 : UInt32) ^^^ 0xFFFFFFFF) ^^^ 0xFFFFFFFF = crc32 data := by
    apply UInt32.toBitVec_inj.mp
    rw [UInt32.toBitVec_xor, toBitVec_foldl_crcStep]
    rfl
  rw [calculateXORCRC, hfold]

/-- The object computes with its table what the bit-serial division does, whatever its array held
before the constructor. -/
theorem create_calculateXORCRC_eq_crc32 (raw : Vector UInt32 256) (data : List UInt8) :
    (CRC32.create raw).calculateXORCRC data = crc32 data ^^^ 0x5354554e := by
  rw [CRC32.create_calculateXORCRC, calculateXORCRC_eq]

end Spadia.Stun.Checksum
