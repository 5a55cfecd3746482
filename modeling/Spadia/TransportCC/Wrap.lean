import Spadia.TransportCC.Serialized

namespace Spadia.TransportCC.Wrap

open Foundation DeltaClock ByteBuffer Wire.ByteOrder Feedback PacketStatus DraftLayout Encoding
open Serialized

/-- The feedback for one packet, as `AddPacket` makes it. -/
def single (raw : UInt8) (num : UInt16) (t : UInt64) : TransportCCFeedBack :=
  TransportCCFeedBack.insertPacket { feedbackPacketCount := raw } num.toUInt32 t

/-- The clock of the loop when the first arrival is at `t`. -/
def startTime (t : ℕ) : ℕ := ((t / 64000) &&& 0x7FFFFF) * 64000

theorem startTime_eq (t : ℕ) : startTime t = t / 64000 % 2 ^ 23 * 64000 :=
  congrArg (· * 64000) (Nat.and_two_pow_sub_one_eq_mod (t / 64000) 23)

/-- Whole periods of the reference time are multiples of `2 ^ 31` quanta. -/
theorem quotient_eq (t : ℕ) : (t - startTime t) / 250 =
    2 ^ 31 * (t / 64000 / 2 ^ 23) + t % 64000 / 250 := by
  rw [startTime_eq]
  omega

/-- Such multiples are lost in the conversion to `short`. -/
theorem int16_deltaTo (t : ℕ) : int16 (deltaTo (startTime t) t) = (t % 64000 / 250 : ℕ) := by
  have hq := quotient_eq t
  have hle : startTime t ≤ t := by
    rw [startTime_eq]
    omega
  have hshort : ∀ q : ℕ, q = 2 ^ 31 * (t / 64000 / 2 ^ 23) + t % 64000 / 250 →
      int16 (int32 q) = (t % 64000 / 250 : ℕ) := by
    intro q hq
    unfold int16 int32
    omega
  unfold deltaTo
  split
  case isTrue => exact hshort _ hq
  case isFalse hge =>
    have heq : startTime t = t := Nat.le_antisymm hle (Nat.le_of_not_lt hge)
    rw [heq, Nat.sub_self] at hq ⊢
    unfold int16 int32
    omega

theorem toList_single (raw : UInt8) (num : UInt16) (t : UInt64) :
    (single raw num t).packets.toList = [(num.toUInt32, t)] := by
  have hlength : (single raw num t).packets.toList.length = 1 := by
    rw [(single raw num t).packets.length_toList]
    simp [single, TransportCCFeedBack.insertPacket, Std.ExtTreeMap.size_insert]
  obtain ⟨e, he⟩ := List.length_eq_one_iff.mp hlength
  have hmem : (num.toUInt32, t) ∈ (single raw num t).packets.toList := by
    rw [(single raw num t).packets.mem_toList_iff_getElem?_eq_some]
    exact Std.ExtTreeMap.getElem?_insert_self
  rw [he, List.mem_singleton] at hmem
  rw [he, hmem]

section Single

variable (raw : UInt8) (num : UInt16) {t : UInt64} (ht : t ≠ 0) (b : Buffer) (data : ℕ)

theorem baseNumber_single (t : UInt64) : baseNumber (single raw num t) = num := by
  rw [baseNumber, toList_single]
  exact UInt16.toUInt16_toUInt32 num

include ht

theorem scan_single : ((single raw num t).scan b data).statuses =
      [label (some (deltaTo (startTime t.toNat) t.toNat))] ∧
    ((single raw num t).scan b data).deltas = [deltaTo (startTime t.toNat) t.toNat] := by
  rw [TransportCCFeedBack.scan, toList_single, List.foldl_cons, List.foldl_nil]
  simp only [Scan.step, ht, if_false, TransportCCFeedBack.scanInit, Bool.false_eq_true, Scan.start]
  exact ⟨rfl, rfl⟩

theorem decode_single :
    decode (bytes ((single raw num t).serialize b data).1 data
      ((single raw num t).serialize b data).2) =
      some ⟨num.toNat, 1, [label (some (deltaTo (startTime t.toNat) t.toNat))],
        [some ((startTime t.toNat : ℤ) + int16 (deltaTo (startTime t.toNat) t.toNat) * 250)]⟩ := by
  have hhead : (arrivals (single raw num t)).head? = some (t.toNat : ℤ) := by
    rw [arrivals, toList_single, List.map_singleton, target_arrival ht]
    rfl
  have hsize : (single raw num t).packets.size = 1 := by
    rw [← (single raw num t).packets.length_toList, toList_single]
    rfl
  obtain ⟨pad, -, hser⟩ := serialize_headed hhead b data
  obtain ⟨hstatuses, hdeltas⟩ := scan_single raw num ht b data
  have href : (t.toNat / 64000) &&& 0x7FFFFF < 2 ^ 24 :=
    Nat.lt_of_le_of_lt Nat.and_le_right (by decide)
  have hread := readStatuses_chunkBytes [label (some (deltaTo (startTime t.toNat) t.toNat))]
    (deltaBytes [deltaTo (startTime t.toNat) t.toNat] ++ List.replicate pad 0)
  have hmoves := readMoves_deltaBytes [some (deltaTo (startTime t.toNat) t.toNat)]
    (List.replicate pad 0)
  rw [hser, bytes_write, hstatuses, hdeltas, hsize, baseNumber_single,
    ← UInt16.ofNat_toNat (x := num), decode_header num.toNat_lt (by decide) href, body]
  rw [List.length_singleton] at hread
  rw [hread, Option.bind_some]
  rw [List.map_singleton, List.reduceOption_cons_of_some, List.reduceOption_nil] at hmoves
  rw [hmoves, Option.map_some, UInt16.ofNat_toNat]
  simp only [List.map_cons, List.map_nil, Option.map_some, replay, startTime, Nat.cast_mul,
    Nat.cast_ofNat]

end Single

/-- Whatever the arrival time is, a reader of the message finds it up to the rounding and whole
periods of the reference time. -/
theorem single_decodes (raw : UInt8) (num : UInt16) (t : UInt64) (ht : t ≠ 0) (b : Buffer)
    (data : ℕ) : ∃ r status x,
    decode (bytes ((single raw num t).serialize b data).1 data
      ((single raw num t).serialize b data).2) = some r ∧
    r.base = num.toNat ∧ r.count = 1 ∧ r.statuses = [status] ∧
    (status = smallDelta ∨ status = largeOrNegativeDelta) ∧ r.times = [some x] ∧
    ((t.toNat : ℤ) - x) % (2 ^ 23 * 64000) < 250 := by
  refine ⟨_, _, _, decode_single raw num ht b data, rfl, rfl, rfl, ?_, rfl, ?_⟩
  · rw [label, statusOf]
    split
    case isTrue => exact .inr rfl
    case isFalse => exact .inl rfl
  · rw [int16_deltaTo, startTime_eq]
    omega

theorem single_decodes_2023 : ∃ r status x,
    decode (bytes ((single 0 5 1700000000123456).serialize malloc 0).1 0
      ((single 0 5 1700000000123456).serialize malloc 0).2) = some r ∧
    r.base = UInt16.toNat 5 ∧ r.count = 1 ∧ r.statuses = [status] ∧
    (status = smallDelta ∨ status = largeOrNegativeDelta) ∧ r.times = [some x] ∧
    ((UInt64.toNat 1700000000123456 : ℤ) - x) % (2 ^ 23 * 64000) < 250 :=
  single_decodes 0 5 1700000000123456 (by decide) malloc 0

end Spadia.TransportCC.Wrap
