import Spadia.TransportCC.Serialized

namespace Spadia.TransportCC.Decoding

open Foundation TracedRead Read ByteBuffer Wire.ByteOrder Feedback PacketStatus Serialized

def memory (b : Buffer) : Memory := fun i ↦ (b i).getD 0

/-- What a decoded feedback keeps of the encoded one. -/
structure Restores (fb fb' : TransportCCFeedBack) : Prop where
  mem_iff : ∀ s, s ∈ fb'.packets ↔ s ∈ fb.packets
  zero_iff : ∀ s : UInt32, fb'.packets[s]? = some 0 ↔ fb.packets[s]? = some 0
  time_close : ∀ (s : UInt32) (t : UInt64), fb.packets[s]? = some t → t ≠ 0 →
    ∃ u, fb'.packets[s]? = some u ∧ |(u.toNat : ℤ) - t.toNat| ≤ 250
  count_eq : fb'.feedbackPacketCount = fb.feedbackPacketCount

variable {data : ℕ} {size : ℤ} {base : UInt32} {count : ℕ} {statuses : List PacketStatus}
variable {m : Memory} {s : UInt32}

theorem mem_insert_number {i : ℕ} (hi : i < count) {packets : Std.ExtTreeMap UInt32 UInt64}
    {t : UInt64} (h : s ∈ packets.insert (base + UInt32.ofNat i) t ∨
      ∃ j < count, s = base + UInt32.ofNat j) :
    s ∈ packets ∨ ∃ j < count, s = base + UInt32.ofNat j := by
  rw [Std.ExtTreeMap.mem_insert, Std.LawfulEqCmp.compare_eq_iff_eq] at h
  obtain (rfl | h) | h := h
  · exact .inr ⟨i, hi, rfl⟩
  · exact .inl h
  · exact .inr h

theorem mem_timeLoop {i len : ℕ} {time : UInt64} {packets : Std.ExtTreeMap UInt32 UInt64}
    (h : s ∈ (timeLoop data size base count statuses i len time packets).value m) :
    s ∈ packets ∨ ∃ j < count, s = base + UInt32.ofNat j := by
  induction i, len, time, packets using timeLoop.induct size base count statuses with
  | case1 i len time packets hi hs =>
    rw [timeLoop, if_pos hi, hs] at h
    exact .inl h
  | case2 i len time packets hi hs ih =>
    rw [timeLoop, if_pos hi, hs] at h
    exact mem_insert_number hi (ih h)
  | case3 i len time packets hi hs hsize =>
    rw [timeLoop, if_pos hi, hs] at h
    simp only [hsize, if_true, value_pure] at h
    exact .inl h
  | case4 i len time packets hi hs hsize ih =>
    rw [timeLoop, if_pos hi, hs] at h
    simp only [hsize, if_false, value_bind] at h
    exact mem_insert_number hi (ih _ h)
  | case5 i len time packets hi hs hsize =>
    rw [timeLoop, if_pos hi, hs] at h
    simp only [hsize, if_true, value_pure] at h
    exact .inl h
  | case6 i len time packets hi hs hsize ih =>
    rw [timeLoop, if_pos hi, hs] at h
    simp only [hsize, if_false, value_bind] at h
    exact mem_insert_number hi (ih _ h)
  | case7 i len time packets hi hs ih =>
    rw [timeLoop, if_pos hi, hs] at h
    exact ih h
  | case8 i len time packets hi =>
    rw [timeLoop, if_neg hi] at h
    exact .inl h

/-- `Parse` reads the base number as a 32-bit word, so the status count is a part of it. -/
theorem mem_parse {fresh : TransportCCFeedBack} (hfresh : fresh.packets = ∅)
    (h : s ∈ ((fresh.parse data size).value m).packets) :
    ∃ j < (be16 (m (data + 2)) (m (data + 3))).toNat,
      s = be32 (m data) (m (data + 1)) (m (data + 2)) (m (data + 3)) + UInt32.ofNat j := by
  have hempty : ¬ s ∈ fresh.packets := by simp [hfresh]
  simp only [TransportCCFeedBack.parse, value_bind, value_ite, value_pure, value_readBE32,
    value_readBE16] at h
  split at h
  · exact absurd h hempty
  · split at h
    · exact absurd h hempty
    · simp only [value_bind, value_pure] at h
      exact (mem_timeLoop h).resolve_left hempty

theorem memory_write (b : Buffer) (data : ℕ) {l : List UInt8} {i : ℕ} {a : UInt8}
    (h : l[i]? = some a) : memory (write b data l) (data + i) = a := by
  obtain ⟨hi, ha⟩ := List.getElem?_eq_some_iff.mp h
  rw [memory, write_inside b hi, ha, Option.getD_some]

/-- No number of the feedback survives: the first one is not among the numbers that `Parse`
finds, whatever the arrival times are. -/
theorem parse_serialize_not_restores {fb : TransportCCFeedBack} {k n : ℕ}
    (h : Representable fb k n) (b : Buffer) (data : ℕ) {fresh : TransportCCFeedBack}
    (hfresh : fresh.packets = ∅) :
    ¬ Restores fb ((fresh.parse data (fb.serialize b data).2).value
      (memory (fb.serialize b data).1)) := by
  intro hrestores
  obtain ⟨t, pad, -, -, hser⟩ := serialize_eq h b data
  have hone := h.one_le
  have hbelow := h.below
  have hk : (UInt32.ofNat k).toNat = k :=
    UInt32.toNat_ofNat_of_lt' (by simp only [UInt32.size]; omega)
  have hmem := (hrestores.mem_iff (UInt32.ofNat k)).mpr ((h.mem_iff _).mpr (by omega))
  obtain ⟨j, hj, hkey⟩ := mem_parse hfresh hmem
  have h₀ := memory_write b data (l := message fb k n t pad) (i := 0) rfl
  have h₁ := memory_write b data (l := message fb k n t pad) (i := 1) rfl
  have h₂ := memory_write b data (l := message fb k n t pad) (i := 2) rfl
  have h₃ := memory_write b data (l := message fb k n t pad) (i := 3) rfl
  rw [Nat.add_zero] at h₀
  rw [hser, h₂, h₃, be16_writeBE16] at hj
  rw [hser, h₀, h₁, h₂, h₃] at hkey
  have hkey := congrArg UInt32.toNat hkey
  rw [hk, UInt32.toNat_add, be32_toNat] at hkey
  have hbase := Encoding.writeBE16_toNat (UInt16.ofNat k)
  have hcount := Encoding.writeBE16_toNat (UInt16.ofNat n)
  have hn : (UInt16.ofNat n).toNat = n := UInt16.toNat_ofNat_of_lt' (Nat.lt_succ_of_le h.le)
  rw [UInt16.toNat_ofNat_of_lt' (by simp only [UInt16.size]; omega)] at hbase
  rw [hn] at hcount hj
  have hj' : (UInt32.ofNat j).toNat = j :=
    UInt32.toNat_ofNat_of_lt' (by simp only [UInt32.size]; omega)
  rw [hj', Nat.mod_eq_of_lt (by omega)] at hkey
  omega

def reread (fb : TransportCCFeedBack) : TransportCCFeedBack :=
  (TransportCCFeedBack.parse ⟨0, 0, ∅⟩ 0 (fb.serialize malloc 0).2).value
    (memory (fb.serialize malloc 0).1)

/-- The numbers 100, 101 and 102 come back as 65536 * 100 + 3 and its two successors. -/
theorem reread_sample : (reread sample).packets.keys = [6553603, 6553604, 6553605] ∧
    ¬ Restores sample (reread sample) := by
  have hkeys : (reread sample).packets.keys = [6553603, 6553604, 6553605] := by decide +kernel
  refine ⟨hkeys, fun h ↦ ?_⟩
  have hmem := (h.mem_iff 100).mpr (by decide)
  rw [← Std.ExtTreeMap.mem_keys, hkeys] at hmem
  exact absurd hmem (by decide)

theorem sample_not_restores : Representable sample 100 3 ∧ ¬ Restores sample (reread sample) :=
  ⟨representable_sample, parse_serialize_not_restores representable_sample malloc 0 rfl⟩

end Spadia.TransportCC.Decoding
