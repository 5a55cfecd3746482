import Spadia.Stun.Checksum

namespace Spadia.Stun.Burst

open Foundation.ReflectedCrc Crc32 Checksum

def bits (data : List UInt8) : List Bool := data.flatMap fun b ↦ lowBits 8 b.toBitVec

theorem bits_append (k l : List UInt8) : bits (k ++ l) = bits k ++ bits l := List.flatMap_append

theorem length_bits (data : List UInt8) : (bits data).length = 8 * data.length := by
  induction data with
  | nil => rfl
  | cons b data ih =>
    rw [bits, List.flatMap_cons, List.length_append, ← bits, ih, List.length_cons, lowBits,
      List.length_map, List.length_range]
    omega

theorem lowBits_injective {b b' : UInt8} (h : lowBits 8 b.toBitVec = lowBits 8 b'.toBitVec) :
    b = b' := by
  apply UInt8.toBitVec_inj.mp
  apply BitVec.eq_of_getLsbD_eq
  intro i hi
  exact List.map_inj_left.mp h i (List.mem_range.mpr hi)

theorem bits_injective : Function.Injective bits := by
  intro l l' h
  have hlength : l.length = l'.length := by
    have hbits := congrArg List.length h
    rw [length_bits, length_bits] at hbits
    omega
  induction l generalizing l' with
  | nil => exact (List.length_eq_zero_iff.mp hlength.symm).symm
  | cons b l ih =>
    cases l' with
    | nil => cases hlength
    | cons b' l' =>
      rw [bits, bits, List.flatMap_cons, List.flatMap_cons] at h
      obtain ⟨hbyte, hrest⟩ := List.append_inj h (by simp [lowBits])
      rw [lowBits_injective hbyte, ih hrest (Nat.succ.inj hlength)]

theorem toBitVec_crc32 (data : List UInt8) : (crc32 data).toBitVec =
    (bits data).foldl (feed polynomial) 0xFFFFFFFF#32 ^^^ 0xFFFFFFFF#32 := (rfl)

/-- Between two messages with one start and one end, four bytes decide the checksum. -/
theorem eq_of_crc32_eq {start window window' rest : List UInt8}
    (hlength : window.length = window'.length) (hfour : window.length ≤ 4)
    (h : crc32 (start ++ window ++ rest) = crc32 (start ++ window' ++ rest)) :
    window = window' := by
  have hmsb : polynomial.msb = true := by decide
  have hfold := congrArg UInt32.toBitVec h
  rw [toBitVec_crc32, toBitVec_crc32, BitVec.xor_left_inj] at hfold
  simp only [bits_append, List.foldl_append] at hfold
  have hwindow := foldl_feed_injective hmsb (bits rest) hfold
  apply bits_injective
  apply eq_of_foldl_feed_eq hmsb _ _ hwindow
  · rw [length_bits, length_bits, hlength]
  · rw [length_bits]
    omega

theorem take_eq {l l' : List UInt8} {i : ℕ} (h : ∀ j < i, l[j]? = l'[j]?) :
    l.take i = l'.take i := by
  apply List.ext_getElem?
  intro j
  rw [List.getElem?_take, List.getElem?_take]
  split
  case isTrue hj => exact h j hj
  case isFalse => rfl

theorem drop_eq {l l' : List UInt8} {i : ℕ} (h : ∀ j, i ≤ j → l[j]? = l'[j]?) :
    l.drop i = l'.drop i := by
  apply List.ext_getElem?
  intro j
  rw [List.getElem?_drop, List.getElem?_drop]
  exact h (i + j) (Nat.le_add_right i j)

theorem split_window (l : List UInt8) (i : ℕ) :
    l = l.take i ++ (l.drop i).take 4 ++ l.drop (i + 4) := by
  rw [List.append_assoc, ← List.drop_drop, List.take_append_drop, List.take_append_drop]

/-- A change of some bytes among four neighbours changes the fingerprint, in messages of every
length. -/
theorem burst_detected (raw : Vector UInt32 256) {l l' : List UInt8}
    (hlength : l.length = l'.length) (hne : l ≠ l') (i : ℕ)
    (hwindow : ∀ j, j < i ∨ i + 4 ≤ j → l[j]? = l'[j]?) :
    (CRC32.create raw).calculateXORCRC l ≠ (CRC32.create raw).calculateXORCRC l' := by
  intro h
  rw [CRC32.create_calculateXORCRC, CRC32.create_calculateXORCRC, calculateXORCRC_eq,
    calculateXORCRC_eq, UInt32.xor_left_inj] at h
  have hstart : l.take i = l'.take i := take_eq fun j hj ↦ hwindow j (.inl hj)
  have hrest : l.drop (i + 4) = l'.drop (i + 4) := drop_eq fun j hj ↦ hwindow j (.inr hj)
  rw [split_window l i, split_window l' i, ← hstart, ← hrest] at h
  have hfour : (l.drop i).take 4 = (l'.drop i).take 4 := by
    apply eq_of_crc32_eq _ _ h
    · simp only [List.length_take, List.length_drop, hlength]
    · exact List.length_take_le 4 _
  apply hne
  rw [split_window l i, split_window l' i, hstart, hfour, hrest]

theorem changed_detected :
    (∀ j, j < 1 ∨ 1 + 4 ≤ j →
      ([7, 0, 1, 2, 3, 9] : List UInt8)[j]? = ([7, 4, 1, 2, 8, 9] : List UInt8)[j]?) ∧
    (CRC32.create (Vector.replicate 256 0)).calculateXORCRC [7, 0, 1, 2, 3, 9] ≠
      (CRC32.create (Vector.replicate 256 0)).calculateXORCRC [7, 4, 1, 2, 8, 9] := by
  have h : ∀ j, j < 1 ∨ 1 + 4 ≤ j →
      ([7, 0, 1, 2, 3, 9] : List UInt8)[j]? = ([7, 4, 1, 2, 8, 9] : List UInt8)[j]? := by
    intro j hj
    match j, hj with
    | 0, _ => rfl
    | j + 5, _ => rfl
  exact ⟨h, burst_detected _ rfl (by decide) 1 h⟩

end Spadia.Stun.Burst
