import Spadia.Foundation.ByteWord
import Spadia.Wire.ByteOrder

namespace Spadia.Wire.ByteIO

open Foundation ByteWord

inductive Endian
  | big
  | little
deriving DecidableEq, Repr

def Endian.place (B : ℕ) : Endian → ℕ → ℕ
  | .big, i => B - 1 - i
  | .little, i => i

theorem involutive_place (order : Endian) (B : ℕ) : Involutive (order.place B) B := by
  intro i hi
  cases order with
  | big => exact ⟨by simp only [Endian.place]; omega, by simp only [Endian.place]; omega⟩
  | little => exact ⟨hi, rfl⟩

/-- The readers and writers of `B` bytes for a type of `w` bytes that compile: the one for single
bytes asserts `sizeof(T) == 1`, all others that the bytes fit in the type. -/
structure Sized (w B : ℕ) : Prop where
  le : B ≤ w
  single : B = 1 → w = 1

section Unsigned

variable (order : Endian) (w : ℕ) (data : ℕ → UInt8)

def get (index : ℕ) : BitVec (8 * w) := (data index).toBitVec.setWidth (8 * w)

def readTwo : BitVec (8 * w) :=
  -- The bytes are promoted to `int`.
  match order with
  | .big => ((data 0).toBitVec.setWidth 32 <<< 8 ||| (data 1).toBitVec.setWidth 32).setWidth (8 * w)
  | .little =>
    ((data 0).toBitVec.setWidth 32 ||| (data 1).toBitVec.setWidth 32 <<< 8).setWidth (8 * w)

def readFour : BitVec (8 * w) :=
  match order with
  | .big => get w data 0 <<< 24 ||| get w data 1 <<< 16 ||| get w data 2 <<< 8 ||| get w data 3
  | .little => get w data 0 ||| get w data 1 <<< 8 ||| get w data 2 <<< 16 ||| get w data 3 <<< 24

def readEight : BitVec (8 * w) :=
  match order with
  | .big => get w data 0 <<< 56 ||| get w data 1 <<< 48 ||| get w data 2 <<< 40 |||
      get w data 3 <<< 32 ||| get w data 4 <<< 24 ||| get w data 5 <<< 16 |||
      get w data 6 <<< 8 ||| get w data 7
  | .little => get w data 0 ||| get w data 1 <<< 8 ||| get w data 2 <<< 16 |||
      get w data 3 <<< 24 ||| get w data 4 <<< 32 ||| get w data 5 <<< 40 |||
      get w data 6 <<< 48 ||| get w data 7 <<< 56

variable {w} {B : ℕ}

/-- `ByteReader<T, B, false>` with its specialisations; `write` is `ByteWriter<T, B, false>`. -/
def read (_ : Sized w B) : BitVec (8 * w) :=
  if B = 1 then get w data 0
  else if B = 2 then readTwo order w data
  else if B = 4 then readFour order w data
  else if B = 8 then readEight order w data
  else join (order.place B) B data

variable (val : BitVec (8 * w))

def low (val : BitVec (8 * w)) : UInt8 := ⟨val.setWidth 8⟩

def writeTwo : List UInt8 :=
  match order with
  | .big => [low (val >>> 8), low val]
  | .little => [low val, low (val >>> 8)]

def writeFour : List UInt8 :=
  match order with
  | .big => [low (val >>> 24), low (val >>> 16), low (val >>> 8), low val]
  | .little => [low val, low (val >>> 8), low (val >>> 16), low (val >>> 24)]

def writeEight : List UInt8 :=
  match order with
  | .big => [low (val >>> 56), low (val >>> 48), low (val >>> 40), low (val >>> 32),
      low (val >>> 24), low (val >>> 16), low (val >>> 8), low val]
  | .little => [low val, low (val >>> 8), low (val >>> 16), low (val >>> 24),
      low (val >>> 32), low (val >>> 40), low (val >>> 48), low (val >>> 56)]

def write (_ : Sized w B) : List UInt8 :=
  if B = 1 then [low val]
  else if B = 2 then writeTwo order val
  else if B = 4 then writeFour order val
  else if B = 8 then writeEight order val
  else split (order.place B) B val

end Unsigned

section Generic

variable (order : Endian) {w B : ℕ} (h : Sized w B) (data : ℕ → UInt8) (val : BitVec (8 * w))

theorem setWidth_promoted (n : ℕ) (hi lo : BitVec 8) :
    (hi.setWidth 32 <<< 8 ||| lo.setWidth 32).setWidth n =
      hi.setWidth n <<< 8 ||| lo.setWidth n := by
  apply BitVec.eq_of_getLsbD_eq
  intro k hk
  simp only [BitVec.getLsbD_setWidth, BitVec.getLsbD_or, BitVec.getLsbD_shiftLeft, hk, decide_true,
    Bool.true_and]
  by_cases h32 : k < 32
  · by_cases h8 : k < 8
    · simp [h32, h8]
    · have hsub : k - 8 < 32 := by omega
      have hn : k - 8 < n := by omega
      simp [h32, h8, hsub, hn]
  · have hhi : hi.getLsbD (k - 8) = false := BitVec.getLsbD_of_ge _ _ (by omega)
    have hlo : lo.getLsbD k = false := BitVec.getLsbD_of_ge _ _ (by omega)
    simp [h32, hhi, hlo]

theorem read_eq_join : read order data h = join (order.place B) B data := by
  unfold read
  split_ifs with h₁ h₂ h₄ h₈
  · subst h₁
    cases order <;> simp [join, get, List.range_succ, Endian.place]
  · subst h₂
    cases order with
    | big =>
      rw [readTwo, setWidth_promoted]
      simp [join, List.range_succ, Endian.place]
    | little =>
      rw [readTwo, BitVec.or_comm, setWidth_promoted, BitVec.or_comm]
      simp [join, List.range_succ, Endian.place]
  · subst h₄
    cases order <;> simp [join, readFour, get, List.range_succ, Endian.place]
  · subst h₈
    cases order <;> simp [join, readEight, get, List.range_succ, Endian.place]
  · rfl

theorem write_eq_split : write order val h = split (order.place B) B val := by
  unfold write
  split_ifs with h₁ h₂ h₄ h₈
  · subst h₁
    cases order <;> simp [split, low, List.range_succ, Endian.place]
  · subst h₂
    cases order <;> simp [split, writeTwo, low, List.range_succ, Endian.place]
  · subst h₄
    cases order <;> simp [split, writeFour, low, List.range_succ, Endian.place]
  · subst h₈
    cases order <;> simp [split, writeEight, low, List.range_succ, Endian.place]
  · rfl

theorem read_written : read order (fun i ↦ (write order val h).getD i 0) h =
    (val.setWidth (8 * B)).setWidth (8 * w) := by
  rw [read_eq_join, write_eq_split, join_split (involutive_place order B)]

/-- A value is read back if and only if it fits in the bytes that are written, and bytes that
are read are written back. -/
theorem unsigned_roundTrip :
    (write order val h).length = B ∧
    (read order (fun i ↦ (write order val h).getD i 0) h = val ↔ val.toNat < 2 ^ (8 * B)) ∧
    write order (read order data h) h = (List.range B).map data := by
  refine ⟨?_, ?_, ?_⟩
  · rw [write_eq_split, length_split]
  · rw [read_written, ← BitVec.toNat_inj, BitVec.toNat_setWidth, BitVec.toNat_setWidth]
    have hle : val.toNat % 2 ^ (8 * B) ≤ val.toNat := Nat.mod_le _ _
    have hlt : val.toNat % 2 ^ (8 * B) < 2 ^ (8 * B) := Nat.mod_lt _ (Nat.two_pow_pos _)
    rw [Nat.mod_eq_of_lt (hle.trans_lt val.isLt)]
    exact ⟨fun h ↦ h ▸ hlt, fun h ↦ Nat.mod_eq_of_lt h⟩
  · rw [read_eq_join, write_eq_split, split_join (involutive_place order B) (by have := h.le; omega)]

theorem sized_threeBytes : Sized 4 3 := ⟨by decide, by decide⟩

theorem threeBytes_roundTrip :
    read .little (fun i ↦ (write .little 0xABCDEF#32 sized_threeBytes).getD i 0)
      sized_threeBytes = 0xABCDEF#32 :=
  (unsigned_roundTrip .little sized_threeBytes (fun _ ↦ 0) 0xABCDEF#32).2.1.mpr (by decide)

end Generic

section Signed

variable (order : Endian) (w B : ℕ) (data : ℕ → UInt8)

/-- `SignExtend`, where a shift of the `int` constant beyond its width has no value. -/
def signExtend (val : BitVec (8 * w)) : Option (BitVec (8 * w)) :=
  let msb := low (val >>> ((B - 1) * 8))
  if msb &&& 0x80 ≠ 0 then
    if B % w * 8 < 32 then
      let usedBitsMask := ((1#32 <<< (B % w * 8)) - 1).signExtend (8 * w)
      some (~~~usedBitsMask ||| val)
    else none
  else some val

variable {w}

def reinterpretAsSigned (val : BitVec (8 * w)) : BitVec (8 * w) :=
  let highestBitMask := 1#(8 * w) <<< (8 * w - 1)
  if val &&& highestBitMask ≠ 0 then val &&& ~~~highestBitMask ||| BitVec.intMin (8 * w) else val

def reinterpretAsUnsigned (val : BitVec (8 * w)) : BitVec (8 * w) := val

variable {B}

def readSigned (h : Sized w B) : Option (BitVec (8 * w)) :=
  let val := read order data h
  if B < w then (signExtend w B val).map reinterpretAsSigned else some (reinterpretAsSigned val)

def writeSigned (val : BitVec (8 * w)) (h : Sized w B) : List UInt8 :=
  write order (reinterpretAsUnsigned val) h

theorem reinterpretAsSigned_eq (val : BitVec (8 * w)) : reinterpretAsSigned val = val := by
  have hmask : 1#(8 * w) <<< (8 * w - 1) = BitVec.intMin (8 * w) := (BitVec.twoPow_eq _ _).symm
  rw [reinterpretAsSigned, hmask]
  split_ifs with h
  · rw [BitVec.intMin, BitVec.and_twoPow] at h
    have hbit : val.getLsbD (8 * w - 1) = true := by
      by_contra hout
      simp [hout] at h
    apply BitVec.eq_of_getLsbD_eq
    intro k hk
    simp only [BitVec.getLsbD_or, BitVec.getLsbD_and, BitVec.getLsbD_not, BitVec.getLsbD_intMin,
      hk, decide_true, Bool.true_and]
    by_cases hlast : k + 1 = 8 * w
    · have hk' : k = 8 * w - 1 := by omega
      rw [hk', hbit]
      simp only [Bool.true_and]
      grind
    · simp [hlast]
  · rfl

theorem getLsbD_usedBitsMask {s : ℕ} (hs : s < 31) {n k : ℕ} (hk : k < n) :
    (((1#32 <<< s) - 1).signExtend n).getLsbD k = decide (k < s) := by
  have hpow : 2 ^ s ≤ 2 ^ 30 := Nat.pow_le_pow_right (by decide) (by omega)
  have hpos : 0 < 2 ^ s := Nat.two_pow_pos s
  have hmask : (1#32 <<< s) - 1 = BitVec.ofNat 32 (2 ^ s - 1) := by
    apply BitVec.eq_of_toNat_eq
    rw [← BitVec.twoPow_eq]
    simp only [BitVec.toNat_sub, BitVec.toNat_ofNat, BitVec.ofNat_eq_ofNat, BitVec.toNat_twoPow]
    omega
  have hmsb : (BitVec.ofNat 32 (2 ^ s - 1)).msb = false := by
    rw [BitVec.msb_eq_false_iff_two_mul_lt, BitVec.toNat_ofNat]
    omega
  rw [hmask, BitVec.signExtend_eq_setWidth_of_msb_false hmsb, BitVec.getLsbD_setWidth,
    BitVec.getLsbD_ofNat]
  simp only [hk, Nat.testBit_two_pow_sub_one, decide_true, Bool.true_and]
  by_cases h : k < s
  · have h32 : k < 32 := by omega
    simp [h, h32]
  · simp [h]

theorem low_and_eq_zero (val : BitVec (8 * w)) : low val &&& 0x80 = 0 ↔ val.getLsbD 7 = false := by
  have hmask : (0x80 : UInt8).toBitVec = BitVec.twoPow 8 7 := by decide
  rw [← UInt8.toBitVec_inj, UInt8.toBitVec_and, hmask, BitVec.and_twoPow]
  cases h : val.getLsbD 7 <;> simp [low, h]

theorem signExtend_eq (h₁ : 1 ≤ B) (hB : B < w) (val : BitVec (8 * B)) :
    signExtend w B (val.setWidth (8 * w)) =
      if 4 ≤ B ∧ val.msb = true then none else some (val.signExtend (8 * w)) := by
  have hmsb : val.msb = (val.setWidth (8 * w) >>> ((B - 1) * 8)).getLsbD 7 := by
    have hlast : (B - 1) * 8 + 7 = 8 * B - 1 := by omega
    have hw : 8 * B - 1 < 8 * w := by omega
    rw [BitVec.msb_eq_getLsbD_last, BitVec.getLsbD_ushiftRight, hlast, BitVec.getLsbD_setWidth]
    simp [hw]
  have hmod : B % w = B := Nat.mod_eq_of_lt hB
  simp only [signExtend, ne_eq, low_and_eq_zero, ← hmsb, hmod, ite_not]
  cases hneg : val.msb with
  | false => simp [BitVec.signExtend_eq_setWidth_of_msb_false hneg]
  | true =>
    by_cases h₄ : 4 ≤ B
    · have hout : ¬ B * 8 < 32 := by omega
      simp [h₄, hout]
    · have hin : B * 8 < 32 := by omega
      simp only [h₄, hin, if_true, Bool.true_eq_false, if_false, false_and, Option.some.injEq]
      apply BitVec.eq_of_getLsbD_eq
      intro k hk
      rw [BitVec.getLsbD_or, BitVec.getLsbD_not, getLsbD_usedBitsMask (by omega) hk,
        BitVec.getLsbD_signExtend, BitVec.getLsbD_setWidth, hneg]
      by_cases hlow : k < 8 * B
      · have hlow' : k < B * 8 := by omega
        simp [hk, hlow, hlow']
      · have hlow' : ¬ k < B * 8 := by omega
        simp [hk, hlow, hlow']

theorem readSigned_eq (h : Sized w B) (h₁ : 1 ≤ B) {val : BitVec (8 * B)}
    (hread : read order data h = val.setWidth (8 * w)) :
    readSigned order data h =
      if B < w ∧ 4 ≤ B ∧ val.msb = true then none else some (val.signExtend (8 * w)) := by
  simp only [readSigned, hread]
  by_cases hlt : B < w
  · rw [if_pos hlt, signExtend_eq h₁ hlt]
    by_cases hout : 4 ≤ B ∧ val.msb = true
    · simp [hout, hlt]
    · rw [if_neg hout, if_neg (fun h ↦ hout h.2), Option.map_some, reinterpretAsSigned_eq]
  · have heq : B = w := by have := h.le; omega
    subst heq
    simp [reinterpretAsSigned_eq, BitVec.signExtend_eq]

theorem toInt_setWidth_of_range {n m : ℕ} (h₁ : 1 ≤ n) (hle : n ≤ m) {val : BitVec m}
    (hlow : -2 ^ (n - 1) ≤ val.toInt) (hhigh : val.toInt < 2 ^ (n - 1)) :
    (val.setWidth n).toInt = val.toInt := by
  have hdvd : 2 ^ n ∣ 2 ^ m := Nat.pow_dvd_pow 2 hle
  have hpow : (2 ^ n : ℕ) = 2 * 2 ^ (n - 1) := by
    rw [← Nat.pow_succ', Nat.succ_eq_add_one, Nat.sub_add_cancel h₁]
  have hcast : ((2 ^ n : ℕ) : ℤ) = 2 * 2 ^ (n - 1) := by exact_mod_cast hpow
  rw [BitVec.toInt_setWidth, ← Int.bmod_bmod_of_dvd hdvd, ← BitVec.toInt_eq_toNat_bmod]
  apply Int.bmod_eq_of_le_mul_two
  · rw [hcast]
    omega
  · rw [hcast]
    omega

theorem signExtend_setWidth_iff {n m : ℕ} (h₁ : 1 ≤ n) (hle : n ≤ m) (val : BitVec m) :
    (val.setWidth n).signExtend m = val ↔ -2 ^ (n - 1) ≤ val.toInt ∧ val.toInt < 2 ^ (n - 1) := by
  rw [← BitVec.toInt_inj, BitVec.toInt_signExtend_of_le hle]
  constructor
  · intro h
    rw [← h]
    exact ⟨BitVec.le_toInt _, BitVec.toInt_lt⟩
  · intro h
    exact toInt_setWidth_of_range h₁ hle h.1 h.2

/-- A signed value is read back if and only if it is in the range of the bytes that are written
and, in a wider type, needs no sign extension from four bytes or more. -/
theorem signed_roundTrip (h : Sized w B) (h₁ : 1 ≤ B) (val : BitVec (8 * w)) :
    readSigned order (fun i ↦ (writeSigned order val h).getD i 0) h = some val ↔
      (-2 ^ (8 * B - 1) ≤ val.toInt ∧ val.toInt < 2 ^ (8 * B - 1)) ∧
        (4 ≤ B → B < w → 0 ≤ val.toInt) := by
  have hB := h.le
  have hread := read_written order h val
  rw [writeSigned, reinterpretAsUnsigned, readSigned_eq order _ h h₁ hread,
    ← signExtend_setWidth_iff (by omega) (by omega)]
  by_cases hval : (val.setWidth (8 * B)).signExtend (8 * w) = val
  · have hrange := (signExtend_setWidth_iff (by omega) (by omega) val).mp hval
    have hmsb : (val.setWidth (8 * B)).msb = true ↔ val.toInt < 0 := by
      rw [BitVec.msb_eq_toInt, decide_eq_true_iff,
        toInt_setWidth_of_range (by omega) (by omega) hrange.1 hrange.2]
    rw [hval]
    simp only [hmsb]
    split_ifs with h
    · simp only [true_and, false_iff, Classical.not_imp]
      exact ⟨h.2.1, h.1, by omega⟩
    · simp only [true_and, true_iff]
      intro h₄ hlt
      by_contra hneg
      exact h ⟨hlt, h₄, by omega⟩
  · split_ifs with h
    · simp [hval]
    · simp [hval]

theorem threeBytes_signed :
    readSigned .big (fun i ↦ (writeSigned .big (-2#32) sized_threeBytes).getD i 0)
      sized_threeBytes = some (-2#32) :=
  (signed_roundTrip .big sized_threeBytes (by decide) (-2#32)).mpr (by decide)

end Signed

section Instances

open ByteOrder TracedRead

theorem sized_self (w : ℕ) : Sized w w := ⟨le_refl w, id⟩

variable (data : ℕ) (m : Memory)

theorem value_readBE16_eq :
    ((readBE16 data).value m).toBitVec = read .big (fun i ↦ m (data + i)) (sized_self 2) := by
  rw [read_eq_join, value_readBE16]
  simp [be16, join, List.range_succ, Endian.place]

theorem value_readBE32_eq :
    ((readBE32 data).value m).toBitVec = read .big (fun i ↦ m (data + i)) (sized_self 4) := by
  rw [read_eq_join, value_readBE32]
  simp [be32, join, List.range_succ, Endian.place]

theorem writeBE16_eq (v : UInt16) : writeBE16 v = write .big v.toBitVec (sized_self 2) := by
  rfl

theorem writeBE32_eq (v : UInt32) : writeBE32 v = write .big v.toBitVec (sized_self 4) := by
  rfl

end Instances

end Spadia.Wire.ByteIO
