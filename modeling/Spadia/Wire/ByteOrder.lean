import Mathlib.Data.Nat.Bitwise
import Mathlib.Tactic.Ring
import Spadia.Foundation.TracedRead

namespace Spadia.Wire.ByteOrder

open Foundation.TracedRead Read

theorem mul_or_eq_add (a b k : ℕ) (h : b < 2 ^ k) : a * 2 ^ k ||| b = a * 2 ^ k + b := by
  rw [← Nat.shiftLeft_eq, Nat.shiftLeft_add_eq_or_of_lt h]

def be16 (b₀ b₁ : UInt8) : UInt16 := b₀.toUInt16 <<< 8 ||| b₁.toUInt16

def be32 (b₀ b₁ b₂ b₃ : UInt8) : UInt32 :=
  b₀.toUInt32 <<< 24 ||| b₁.toUInt32 <<< 16 ||| b₂.toUInt32 <<< 8 ||| b₃.toUInt32

theorem be16_toNat (b₀ b₁ : UInt8) : (be16 b₀ b₁).toNat = b₀.toNat * 2 ^ 8 + b₁.toNat := by
  have h₀ := b₀.toNat_lt
  have h₁ := b₁.toNat_lt
  have hs : b₀.toNat <<< 8 % 2 ^ 16 = b₀.toNat * 2 ^ 8 := by
    rw [Nat.shiftLeft_eq]; omega
  simp only [be16, UInt16.toNat_or, UInt16.toNat_shiftLeft, UInt8.toNat_toUInt16]
  exact (congrArg (· ||| _) hs).trans (mul_or_eq_add _ _ 8 h₁)

theorem be32_toNat (b₀ b₁ b₂ b₃ : UInt8) : (be32 b₀ b₁ b₂ b₃).toNat =
    b₀.toNat * 2 ^ 24 + b₁.toNat * 2 ^ 16 + b₂.toNat * 2 ^ 8 + b₃.toNat := by
  have h₀ := b₀.toNat_lt
  have h₁ := b₁.toNat_lt
  have h₂ := b₂.toNat_lt
  have h₃ := b₃.toNat_lt
  have hs (x k : ℕ) (h : x * 2 ^ k < 2 ^ 32) : x <<< k % 2 ^ 32 = x * 2 ^ k := by
    rw [Nat.shiftLeft_eq]; exact Nat.mod_eq_of_lt h
  have e : (be32 b₀ b₁ b₂ b₃).toNat =
      b₀.toNat * 2 ^ 24 ||| b₁.toNat * 2 ^ 16 ||| b₂.toNat * 2 ^ 8 ||| b₃.toNat := by
    rw [← hs b₀.toNat 24 (by omega), ← hs b₁.toNat 16 (by omega), ← hs b₂.toNat 8 (by omega)]
    simp only [be32, UInt32.toNat_or, UInt32.toNat_shiftLeft, UInt8.toNat_toUInt32]
    rfl
  rw [e, mul_or_eq_add _ _ 24 (by omega),
    show b₀.toNat * 2 ^ 24 + b₁.toNat * 2 ^ 16 = (b₀.toNat * 2 ^ 8 + b₁.toNat) * 2 ^ 16 by ring,
    mul_or_eq_add _ _ 16 (by omega),
    show (b₀.toNat * 2 ^ 8 + b₁.toNat) * 2 ^ 16 + b₂.toNat * 2 ^ 8 =
      (b₀.toNat * 2 ^ 16 + b₁.toNat * 2 ^ 8 + b₂.toNat) * 2 ^ 8 by ring,
    mul_or_eq_add _ _ 8 (by omega)]

def readBE8 (data : ℕ) : Read UInt8 := byte data

/-- `ByteReader<uint16_t>::ReadBigEndian`. -/
def readBE16 (data : ℕ) : Read UInt16 := do
  let b₀ ← byte data
  let b₁ ← byte (data + 1)
  return be16 b₀ b₁

def readBE32 (data : ℕ) : Read UInt32 := do
  let b₀ ← byte data
  let b₁ ← byte (data + 1)
  let b₂ ← byte (data + 2)
  let b₃ ← byte (data + 3)
  return be32 b₀ b₁ b₂ b₃

@[simp] theorem value_readBE8 (data : ℕ) (m : Memory) : (readBE8 data).value m = m data := (rfl)

@[simp] theorem value_readBE16 (data : ℕ) (m : Memory) :
    (readBE16 data).value m = be16 (m data) (m (data + 1)) := (rfl)

@[simp] theorem value_readBE32 (data : ℕ) (m : Memory) : (readBE32 data).value m =
    be32 (m data) (m (data + 1)) (m (data + 2)) (m (data + 3)) := (rfl)

@[simp] theorem trace_readBE16 (data : ℕ) (m : Memory) :
    (readBE16 data).trace m = [data, data + 1] := (rfl)

variable {n : ℕ} {m : Memory}

@[simp] theorem inside_readBE8 (data : ℕ) : Inside n (readBE8 data) m ↔ data < n :=
  inside_byte data

@[simp] theorem inside_readBE16 (data : ℕ) : Inside n (readBE16 data) m ↔ data + 1 < n := by
  simp only [readBE16, inside_bind, inside_byte, inside_pure, and_true]
  omega

@[simp] theorem inside_readBE32 (data : ℕ) : Inside n (readBE32 data) m ↔ data + 3 < n := by
  simp only [readBE32, inside_bind, inside_byte, inside_pure, and_true]
  omega

/-- `ByteWriter<uint16_t>::WriteBigEndian`. -/
def writeBE16 (v : UInt16) : List UInt8 := [(v >>> 8).toUInt8, v.toUInt8]

def writeBE32 (v : UInt32) : List UInt8 :=
  [(v >>> 24).toUInt8, (v >>> 16).toUInt8, (v >>> 8).toUInt8, v.toUInt8]

@[simp] theorem length_writeBE16 (v : UInt16) : (writeBE16 v).length = 2 := (rfl)

@[simp] theorem length_writeBE32 (v : UInt32) : (writeBE32 v).length = 4 := (rfl)

theorem be16_writeBE16 (v : UInt16) : be16 (v >>> 8).toUInt8 v.toUInt8 = v := by
  have hv := v.toNat_lt
  apply UInt16.toNat_inj.mp
  rw [be16_toNat]
  simp only [UInt16.toNat_toUInt8, UInt16.toNat_shiftRight, Nat.shiftRight_eq_div_pow]
  simp
  omega

theorem writeBE16_be16 (b₀ b₁ : UInt8) : writeBE16 (be16 b₀ b₁) = [b₀, b₁] := by
  have hnat := be16_toNat b₀ b₁
  have h₀ := b₀.toNat_lt
  have h₁ := b₁.toNat_lt
  have hhigh : (be16 b₀ b₁ >>> 8).toUInt8 = b₀ := by
    apply UInt8.toNat_inj.mp
    simp only [UInt16.toNat_toUInt8, UInt16.toNat_shiftRight, Nat.shiftRight_eq_div_pow, hnat]
    simp
    omega
  have hlow : (be16 b₀ b₁).toUInt8 = b₁ := by
    apply UInt8.toNat_inj.mp
    rw [UInt16.toNat_toUInt8, hnat]
    omega
  rw [writeBE16, hhigh, hlow]

theorem writeBE16_injective : Function.Injective writeBE16 := by
  intro v w h
  simp only [writeBE16, List.cons.injEq, and_true] at h
  rw [← be16_writeBE16 v, h.1, h.2, be16_writeBE16]

theorem be32_writeBE32 (v : UInt32) :
    be32 (v >>> 24).toUInt8 (v >>> 16).toUInt8 (v >>> 8).toUInt8 v.toUInt8 = v := by
  have hv := v.toNat_lt
  apply UInt32.toNat_inj.mp
  rw [be32_toNat]
  simp only [UInt32.toNat_toUInt8, UInt32.toNat_shiftRight, Nat.shiftRight_eq_div_pow]
  simp
  omega

/-- Round a length up to whole 32-bit words. -/
def pad32 (size : UInt32) : UInt32 :=
  if size &&& 0x03 ≠ 0 then (size &&& 0xFFFFFFFC) + 0x04 else size

theorem and_not_three (n : ℕ) (h : n < 2 ^ 32) : n &&& 0xFFFFFFFC = n / 4 * 4 := by
  have hmask : 0xFFFFFFFC = (2 ^ 30 - 1) <<< 2 := rfl
  have hdiv : n / 4 * 4 = (n >>> 2) <<< 2 := by simp [Nat.shiftLeft_eq, Nat.shiftRight_eq_div_pow]
  apply Nat.eq_of_testBit_eq
  intro i
  rw [hmask, hdiv, Nat.testBit_and, Nat.testBit_shiftLeft, Nat.testBit_shiftLeft,
    Nat.testBit_two_pow_sub_one, Nat.testBit_shiftRight]
  rcases Nat.lt_or_ge i 2 with h2 | h2
  · simp [Nat.not_le.mpr h2]
  · rcases Nat.lt_or_ge i 32 with h32 | h32
    · have hi : i - 2 < 30 := by omega
      simp [h2, hi, Nat.add_sub_cancel' h2]
    · have hn : n.testBit i = false :=
        Nat.testBit_lt_two_pow (h.trans_le (Nat.pow_le_pow_right (by decide) h32))
      simp [hn, Nat.add_sub_cancel' h2]

theorem pad32_toNat {size : UInt32} (h : size.toNat < 2 ^ 32 - 4) :
    (pad32 size).toNat = (size.toNat + 3) / 4 * 4 := by
  have hlow : (size &&& 0x03).toNat = size.toNat % 4 := by
    rw [UInt32.toNat_and]
    exact Nat.and_two_pow_sub_one_eq_mod _ 2
  have hhigh : (size &&& 0xFFFFFFFC).toNat = size.toNat / 4 * 4 := by
    rw [UInt32.toNat_and]
    exact and_not_three _ size.toNat_lt
  unfold pad32
  split
  case isTrue hne =>
    have hne' : size.toNat % 4 ≠ 0 := by
      rw [← hlow]
      exact fun h0 ↦ hne (UInt32.toNat_inj.mp h0)
    rw [UInt32.toNat_add, hhigh]
    simp only [UInt32.reduceToNat]
    omega
  case isFalse heq =>
    have heq' : size.toNat % 4 = 0 := by
      rw [← hlow, not_not.mp heq]
      rfl
    omega

end Spadia.Wire.ByteOrder
