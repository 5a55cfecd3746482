import Mathlib.Algebra.Order.Floor.Semifield
import Mathlib.Data.Rat.Floor
import Mathlib.Tactic.NormNum
import Spadia.Rtcp.Reports

namespace Spadia.Rtcp.NtpTime

open Reports

/-- The conversion of a floating-point number to an unsigned integer of `bits` bits. Outside of
their range it is undefined. -/
def toUnsigned (bits : ℕ) (x : ℚ) : Option ℕ := if -1 < x ∧ x < 2 ^ bits then some ⌊x⌋₊ else none

/-- The seconds from the year 1900 to 1970. -/
def epochOffset : UInt64 := 2208988800

/-- `SendReportPacket::SetTimestamp`, with the constants as exact rational numbers. -/
def setTimestamp (p : SendReportPacket) (time : UInt64) : Option SendReportPacket := do
  let sec ← toUnsigned 32 (time.toNat / 1E6)
  let ntpSec := (UInt64.ofNat sec + epochOffset).toUInt32
  let ntpFrac ← toUnsigned 32 ((time.toNat - sec * 1E6) * 4294.967296)
  return { p with ntpSec, ntpFrac := UInt32.ofNat ntpFrac }

/-- `SendReportPacket::GetTimestamp`. The offset is a 64-bit number, and so is the difference. -/
def getTimestamp (p : SendReportPacket) : Option UInt64 := do
  let ts := p.ntpSec.toUInt64 - epochOffset
  let ts ← toUnsigned 64 (ts.toNat * 1E6)
  let ts ← toUnsigned 64 (ts + p.ntpFrac.toNat / 4294.967296)
  return UInt64.ofNat ts

/-- The time comes back, less one microsecond at most, and the subtraction does not wrap. -/
def Survives (p : SendReportPacket) (t : UInt64) : Prop :=
  ∃ q r, setTimestamp p t = some q ∧ getTimestamp q = some r ∧
    (r = t ∨ r.toNat + 1 = t.toNat) ∧ epochOffset.toNat ≤ q.ntpSec.toNat

theorem toUnsigned_div {bits a b : ℕ} (h : a / b < 2 ^ bits) (hb : 0 < b) :
    toUnsigned bits ((a : ℚ) / b) = some (a / b) := by
  have hb' : (0 : ℚ) < b := by exact_mod_cast hb
  have hlt : (a : ℚ) / b < 2 ^ bits := by
    rw [div_lt_iff₀ hb']
    exact_mod_cast (Nat.div_lt_iff_lt_mul hb).mp h
  have hnonneg : (0 : ℚ) ≤ a / b := by positivity
  rw [toUnsigned, if_pos ⟨by linarith, hlt⟩, Nat.floor_div_eq_div]

theorem toUnsigned_eq_none {bits : ℕ} {x : ℚ} (h : 2 ^ bits ≤ x) : toUnsigned bits x = none :=
  if_neg fun hx ↦ absurd hx.2 (not_lt.mpr h)

def splitTime (p : SendReportPacket) (t : ℕ) : SendReportPacket :=
  { p with
    ntpSec := (UInt64.ofNat (t / 1000000) + epochOffset).toUInt32
    ntpFrac := UInt32.ofNat (t % 1000000 * 2 ^ 32 / 1000000) }

theorem setTimestamp_eq (p : SendReportPacket) {t : UInt64} (h : t.toNat / 1000000 < 2 ^ 32) :
    setTimestamp p t = some (splitTime p t.toNat) := by
  have hsec : toUnsigned 32 ((t.toNat : ℚ) / 1E6) = some (t.toNat / 1000000) := by
    rw [← toUnsigned_div h (by decide)]
    norm_num
  have hrest : ((t.toNat : ℚ) - (t.toNat / 1000000 : ℕ) * 1E6) * 4294.967296 =
      ((t.toNat % 1000000 * 2 ^ 32 : ℕ) : ℚ) / (1000000 : ℕ) := by
    have hsplit : (t.toNat : ℚ) = 1000000 * (t.toNat / 1000000 : ℕ) + (t.toNat % 1000000 : ℕ) := by
      exact_mod_cast (Nat.div_add_mod t.toNat 1000000).symm
    push_cast
    rw [hsplit]
    ring
  have hfrac : toUnsigned 32 (((t.toNat : ℚ) - (t.toNat / 1000000 : ℕ) * 1E6) * 4294.967296) =
      some (t.toNat % 1000000 * 2 ^ 32 / 1000000) := by
    rw [hrest, toUnsigned_div (by omega) (by decide)]
  simp only [setTimestamp, hsec, hfrac, Option.bind_eq_bind, Option.bind_some]
  rfl

theorem toNat_ntpSec (p : SendReportPacket) {t : ℕ} (h : t / 1000000 < 2 ^ 32) :
    (splitTime p t).ntpSec.toNat = (t / 1000000 + 2208988800) % 2 ^ 32 := by
  have hsec : (UInt64.ofNat (t / 1000000)).toNat = t / 1000000 :=
    UInt64.toNat_ofNat_of_lt' (h.trans (by decide))
  have hoffset : epochOffset.toNat = 2208988800 := rfl
  simp only [splitTime, UInt64.toNat_toUInt32, UInt64.toNat_add, hsec, hoffset]
  omega

theorem toNat_ntpFrac (p : SendReportPacket) (t : ℕ) :
    (splitTime p t).ntpFrac.toNat = t % 1000000 * 2 ^ 32 / 1000000 :=
  UInt32.toNat_ofNat_of_lt' (by simp only [UInt32.size]; omega)

theorem getTimestamp_eq {q : SendReportPacket} (h : 2208988800 ≤ q.ntpSec.toNat) :
    getTimestamp q = some (UInt64.ofNat
      ((q.ntpSec.toNat - 2208988800) * 1000000 + q.ntpFrac.toNat * 1000000 / 2 ^ 32)) := by
  have hsec := q.ntpSec.toNat_lt
  have hfrac := q.ntpFrac.toNat_lt
  have hts : (q.ntpSec.toUInt64 - epochOffset).toNat = q.ntpSec.toNat - 2208988800 :=
    UInt64.toNat_sub_of_le _ _ (UInt64.le_iff_toNat_le.mpr h)
  have hn : q.ntpSec.toNat - 2208988800 < 2 ^ 32 := by omega
  generalize q.ntpSec.toNat - 2208988800 = n at hts hn ⊢
  have hwhole : toUnsigned 64 ((n : ℚ) * 1E6) = some (n * 1000000) := by
    have heq : (n : ℚ) * 1E6 = ((n * 1000000 : ℕ) : ℚ) / (1 : ℕ) := by
      push_cast
      ring
    rw [heq, toUnsigned_div (by omega) Nat.one_pos, Nat.div_one]
  have hsum : ((n * 1000000 : ℕ) : ℚ) + q.ntpFrac.toNat / 4294.967296 =
      ((n * 1000000 * 2 ^ 32 + q.ntpFrac.toNat * 1000000 : ℕ) : ℚ) / (2 ^ 32 : ℕ) := by
    push_cast
    ring
  have hall : toUnsigned 64 (((n * 1000000 : ℕ) : ℚ) + q.ntpFrac.toNat / 4294.967296) =
      some (n * 1000000 + q.ntpFrac.toNat * 1000000 / 2 ^ 32) := by
    rw [hsum, toUnsigned_div (by omega) (by decide)]
    congr 1
    omega
  simp only [getTimestamp, hts, hwhole, hall, Option.bind_eq_bind, Option.bind_some]
  rfl

/-- Below the offset, the difference is close to two to the 64, and a million times that fits no
integer. -/
theorem getTimestamp_eq_none {q : SendReportPacket} (h : q.ntpSec.toNat < 2208988800) :
    getTimestamp q = none := by
  have hts : 2 ^ 63 ≤ (q.ntpSec.toUInt64 - epochOffset).toNat := by
    have hoffset : epochOffset.toNat = 2208988800 := rfl
    rw [UInt64.toNat_sub, UInt32.toNat_toUInt64, hoffset]
    omega
  have hproduct : (2 : ℚ) ^ 64 ≤ (q.ntpSec.toUInt64 - epochOffset).toNat * 1E6 := by
    have hts' : (2 : ℚ) ^ 63 ≤ (q.ntpSec.toUInt64 - epochOffset).toNat := by exact_mod_cast hts
    linarith
  simp only [getTimestamp, toUnsigned_eq_none hproduct, Option.bind_eq_bind, Option.bind_none]

/-- A time survives exactly if its seconds do not wrap when they are counted from 1900, which they
do in 2036. -/
theorem timestamp_survives_iff (p : SendReportPacket) {t : UInt64}
    (h : t.toNat / 1000000 < 2 ^ 32) :
    Survives p t ↔ t.toNat / 1000000 < 2 ^ 32 - 2208988800 := by
  have hsec := toNat_ntpSec p h
  have hfrac := toNat_ntpFrac p t.toNat
  rw [Survives, setTimestamp_eq p h]
  by_cases hwrap : t.toNat / 1000000 < 2 ^ 32 - 2208988800
  · have hkept : (splitTime p t.toNat).ntpSec.toNat - 2208988800 = t.toNat / 1000000 := by omega
    refine iff_of_true ⟨_, _, rfl, getTimestamp_eq (by omega), ?_, ?_⟩ hwrap
    · rw [hkept, hfrac, ← UInt64.toNat_inj, UInt64.toNat_ofNat_of_lt' (by
        simp only [UInt64.size]
        omega)]
      omega
    · rw [hsec]
      have hoffset : epochOffset.toNat = 2208988800 := rfl
      omega
  · refine iff_of_false ?_ hwrap
    intro hsurvives
    obtain ⟨q, r, hq, hr, -⟩ := hsurvives
    cases hq
    rw [getTimestamp_eq_none (by omega)] at hr
    cases hr

theorem timestamp_2023 : (1700000000123456 : UInt64).toNat / 1000000 < 2 ^ 32 ∧
    Survives {} 1700000000123456 :=
  ⟨by decide, (timestamp_survives_iff {} (by decide)).mpr (by decide)⟩

/-- The first microsecond of the second era is written as second zero, which cannot be read. -/
theorem timestamp_2036 : (2085978496000000 : UInt64).toNat / 1000000 < 2 ^ 32 ∧
    ∃ q, setTimestamp {} 2085978496000000 = some q ∧ q.ntpSec = 0 ∧
      q.ntpSec.toNat < epochOffset.toNat ∧ getTimestamp q = none ∧
      ¬ Survives {} 2085978496000000 := by
  have hset : setTimestamp {} 2085978496000000 = some (splitTime {} 2085978496000000) :=
    setTimestamp_eq {} (by decide)
  have hnone : getTimestamp (splitTime {} 2085978496000000) = none :=
    getTimestamp_eq_none (by decide)
  refine ⟨by decide, _, hset, by decide, by decide, hnone, ?_⟩
  intro h
  obtain ⟨q, r, hq, hr, -⟩ := h
  cases hset.symm.trans hq
  rw [hnone] at hr
  cases hr

end Spadia.Rtcp.NtpTime
