import Spadia.Rtcp.NtpTime
import Spadia.Rtcp.ReportBlock

namespace Spadia.Rtcp.ReportDelay

open ReportBlock NtpTime

/-- `RTCPReceiverReportBlock::SetDelaySinceLastSRMS`, with the constant as an exact rational
number. -/
def setDelaySinceLastSRMS (b : Block) (ms : UInt32) : Option Block := do
  let frac ← toUnsigned 32 ((ms % 1000).toNat * 65.535)
  return b.setDelaySinceLastSR ((ms / 1000) <<< 16 ||| UInt32.ofNat frac)

/-- `RTCPReceiverReportBlock::GetDelaySinceLastSRMS`. Its constant is not the one of the setter. -/
def getDelaySinceLastSRMS (b : Block) : Option UInt32 := do
  let dslr := b.getDelaySinceLastSR
  let ms ← toUnsigned 32 (((dslr >>> 16) * 1000).toNat + (dslr &&& 0xFFFF).toNat / 65.635)
  return UInt32.ofNat ms

/-- The delay comes back, less one millisecond at most. -/
def Precise (b : Block) (ms : UInt32) : Prop :=
  ∃ b' r, setDelaySinceLastSRMS b ms = some b' ∧ getDelaySinceLastSRMS b' = some r ∧
    (r = ms ∨ r.toNat + 1 = ms.toNat)

theorem toNat_join {high low : UInt32} (hhigh : high.toNat < 65536) (hlow : low.toNat < 65536) :
    (high <<< 16 ||| low).toNat = high.toNat * 65536 + low.toNat := by
  have hshift : (high <<< 16).toNat = high.toNat * 2 ^ 16 := by
    rw [UInt32.toNat_shiftLeft, Nat.shiftLeft_eq]
    exact Nat.mod_eq_of_lt (show high.toNat * 65536 < 2 ^ 32 by omega)
  have hlow' : low.toNat < 2 ^ 16 := hlow
  rw [UInt32.toNat_or, hshift, Nat.mul_comm, ← Nat.two_pow_add_eq_or_of_lt hlow']
  omega

theorem setDelaySinceLastSRMS_eq (b : Block) {ms : UInt32} (h : ms.toNat / 1000 < 65536) :
    ∃ delay : UInt32, setDelaySinceLastSRMS b ms = some (b.setDelaySinceLastSR delay) ∧
      delay.toNat = ms.toNat / 1000 * 65536 + ms.toNat % 1000 * 65535 / 1000 := by
  have hmod : (ms % 1000).toNat = ms.toNat % 1000 := UInt32.toNat_mod ms 1000
  have hdiv : (ms / 1000).toNat = ms.toNat / 1000 := UInt32.toNat_div ms 1000
  have hfrac : toUnsigned 32 (((ms % 1000).toNat : ℚ) * 65.535) =
      some (ms.toNat % 1000 * 65535 / 1000) := by
    have heq : ((ms % 1000).toNat : ℚ) * 65.535 =
        ((ms.toNat % 1000 * 65535 : ℕ) : ℚ) / (1000 : ℕ) := by
      rw [hmod]
      push_cast
      ring
    rw [heq, toUnsigned_div (by omega) (by decide)]
  have hlow : (UInt32.ofNat (ms.toNat % 1000 * 65535 / 1000)).toNat =
      ms.toNat % 1000 * 65535 / 1000 :=
    UInt32.toNat_ofNat_of_lt' (by simp only [UInt32.size]; omega)
  refine ⟨(ms / 1000) <<< 16 ||| UInt32.ofNat (ms.toNat % 1000 * 65535 / 1000), ?_, ?_⟩
  · simp only [setDelaySinceLastSRMS, hfrac, Option.bind_eq_bind, Option.bind_some]
    rfl
  · rw [toNat_join (by omega) (by omega), hdiv, hlow]

theorem getDelaySinceLastSR_set (b : Block) (delay : UInt32) :
    (b.setDelaySinceLastSR delay).getDelaySinceLastSR = delay := Block.word_put b (by decide) delay

theorem getDelaySinceLastSRMS_eq (b : Block) : getDelaySinceLastSRMS b = some (UInt32.ofNat
    (b.getDelaySinceLastSR.toNat / 65536 * 1000 +
      b.getDelaySinceLastSR.toNat % 65536 * 1000 / 65635)) := by
  generalize hdelay : b.getDelaySinceLastSR = delay
  have hlt := delay.toNat_lt
  have hlow : (delay &&& 0xFFFF).toNat = delay.toNat % 65536 := by
    rw [UInt32.toNat_and]
    exact Nat.and_two_pow_sub_one_eq_mod delay.toNat 16
  have hshift : (delay >>> 16).toNat = delay.toNat / 65536 := by
    rw [UInt32.toNat_shiftRight]
    exact Nat.shiftRight_eq_div_pow delay.toNat 16
  have hwhole : ((delay >>> 16) * 1000).toNat = delay.toNat / 65536 * 1000 := by
    rw [UInt32.toNat_mul, hshift]
    exact Nat.mod_eq_of_lt (by simp only [UInt32.reduceToNat]; omega)
  have hsum : ((delay.toNat / 65536 * 1000 : ℕ) : ℚ) + (delay.toNat % 65536 : ℕ) / 65.635 =
      ((delay.toNat / 65536 * 1000 * 65635 + delay.toNat % 65536 * 1000 : ℕ) : ℚ) /
        (65635 : ℕ) := by
    push_cast
    ring
  have hms : toUnsigned 32 (((delay.toNat / 65536 * 1000 : ℕ) : ℚ) +
      (delay.toNat % 65536 : ℕ) / 65.635) =
      some (delay.toNat / 65536 * 1000 + delay.toNat % 65536 * 1000 / 65635) := by
    rw [hsum, toUnsigned_div (by omega) (by decide)]
    congr 1
    omega
  simp only [getDelaySinceLastSRMS, hdelay, hwhole, hlow, hms, Option.bind_eq_bind,
    Option.bind_some]
  rfl

/-- Scaled up by 65.535 and down by 65.635, a fraction loses two milliseconds where it is large. -/
theorem scaled_iff {r : ℕ} (h : r < 1000) :
    (r * 65535 / 1000 * 1000 / 65635 = r ∨ r * 65535 / 1000 * 1000 / 65635 + 1 = r) ↔
      r ≤ 649 ∨ r = 651 := by
  have hall : ∀ r : Fin 1000, (r.val * 65535 / 1000 * 1000 / 65635 = r.val ∨
      r.val * 65535 / 1000 * 1000 / 65635 + 1 = r.val) ↔ r.val ≤ 649 ∨ r.val = 651 := by
    decide +kernel
  exact hall ⟨r, h⟩

/-- The delay keeps its milliseconds exactly if the part below the second is at most 649, or
651. -/
theorem delay_precise_iff (b : Block) {ms : UInt32} (h : ms.toNat / 1000 < 65536) :
    Precise b ms ↔ ms.toNat % 1000 ≤ 649 ∨ ms.toNat % 1000 = 651 := by
  have hr : ms.toNat % 1000 < 1000 := Nat.mod_lt _ (by decide)
  have hms := ms.toNat_lt
  obtain ⟨delay, hset, hdelay⟩ := setDelaySinceLastSRMS_eq b h
  have hget := getDelaySinceLastSRMS_eq (b.setDelaySinceLastSR delay)
  have hhigh : delay.toNat / 65536 = ms.toNat / 1000 := by omega
  have hlow : delay.toNat % 65536 = ms.toNat % 1000 * 65535 / 1000 := by omega
  rw [getDelaySinceLastSR_set, hhigh, hlow] at hget
  have hread : (UInt32.ofNat (ms.toNat / 1000 * 1000 +
      ms.toNat % 1000 * 65535 / 1000 * 1000 / 65635)).toNat =
        ms.toNat / 1000 * 1000 + ms.toNat % 1000 * 65535 / 1000 * 1000 / 65635 :=
    UInt32.toNat_ofNat_of_lt' (by simp only [UInt32.size]; omega)
  rw [Precise, hset, ← scaled_iff hr]
  constructor
  · intro hprecise
    obtain ⟨b', r, hb', hr', hclose⟩ := hprecise
    rw [← Option.some.inj hb', hget] at hr'
    rw [← Option.some.inj hr', ← UInt32.toNat_inj, hread] at hclose
    omega
  · intro hscaled
    refine ⟨_, _, rfl, hget, ?_⟩
    rw [← UInt32.toNat_inj, hread]
    omega

theorem delay_5250 : (5250 : UInt32).toNat / 1000 < 65536 ∧ Precise {} 5250 :=
  ⟨by decide, (delay_precise_iff {} (by decide)).mpr (by decide)⟩

/-- A delay of 999 milliseconds is read as 997. -/
theorem delay_999 : (999 : UInt32).toNat / 1000 < 65536 ∧
    (setDelaySinceLastSRMS {} 999).bind getDelaySinceLastSRMS = some 997 ∧ ¬ Precise {} 999 := by
  have hms : (999 : UInt32).toNat / 1000 < 65536 := by decide
  obtain ⟨delay, hset, hdelay⟩ := setDelaySinceLastSRMS_eq {} hms
  have hget := getDelaySinceLastSRMS_eq (Block.setDelaySinceLastSR {} delay)
  rw [getDelaySinceLastSR_set, hdelay] at hget
  have hread : (setDelaySinceLastSRMS {} 999).bind getDelaySinceLastSRMS = some 997 := by
    rw [hset, Option.bind_some, hget]
    decide
  refine ⟨hms, hread, ?_⟩
  intro h
  obtain ⟨b', r, hb', hr, hclose⟩ := h
  rw [hb', Option.bind_some, hr] at hread
  cases hread
  exact absurd hclose (by decide)

end Spadia.Rtcp.ReportDelay
