import Mathlib.Data.List.Sort
import Spadia.TransportCC.Encoding

namespace Spadia.TransportCC.Serialized

open Foundation DeltaClock ByteBuffer Wire.ByteOrder Feedback PacketStatus DraftLayout Encoding

/-- The time that the clock has to follow for a map entry. A zero means no arrival. -/
def target (entry : UInt32 × UInt64) : Option ℤ :=
  if entry.2 = 0 then none else some entry.2.toNat

theorem target_zero {entry : UInt32 × UInt64} (h : entry.2 = 0) : target entry = none := if_pos h

theorem target_arrival {entry : UInt32 × UInt64} (h : entry.2 ≠ 0) :
    target entry = some (entry.2.toNat : ℤ) := if_neg h

theorem int32_eq {x : ℤ} (h : |x| ≤ 2 ^ 30) : int32 x = x := by
  rw [abs_le] at h
  unfold int32
  omega

theorem stepTo_of_lt {time t : ℕ} (h : time < t) :
    stepTo 250 time t = ((t - time) / 250 : ℕ) := by
  rw [stepTo, ← Nat.cast_sub h.le]
  rfl

theorem stepTo_of_le {time t : ℕ} (h : t ≤ time) :
    stepTo 250 time t = -((time - t) / 250 : ℕ) := by
  rw [stepTo, ← neg_sub, Int.neg_tdiv, ← Nat.cast_sub h]
  rfl

theorem deltaTo_eq {time t : ℕ} (h : |stepTo 250 time t| ≤ 2 ^ 15) :
    deltaTo time t = stepTo 250 time t := by
  have hbound : (2 ^ 15 : ℤ) ≤ 2 ^ 30 := by decide
  unfold deltaTo
  split
  case isTrue hlt =>
    rw [stepTo_of_lt hlt] at h ⊢
    exact int32_eq (h.trans hbound)
  case isFalse hle =>
    have he := stepTo_of_le (Nat.le_of_not_lt hle)
    rw [he, abs_neg] at h
    rw [he, int32_eq (h.trans hbound), int32_eq (by rw [abs_neg]; exact h.trans hbound)]

theorem clock_mem (c t : ℕ) : 0 ≤ c + stepTo 250 c t * 250 ∧
    c + stepTo 250 c t * 250 ≤ max c t := by
  unfold stepTo
  rcases le_total c t with hct | htc
  · rw [Int.tdiv_eq_ediv_of_nonneg (by omega)]
    omega
  · rw [← neg_sub, Int.neg_tdiv, Int.tdiv_eq_ediv_of_nonneg (by omega)]
    omega

variable (data : ℕ) (count : UInt8)

theorem step_absent (s : Scan) {entry : UInt32 × UInt64} (h : entry.2 = 0) :
    s.step data count entry = { s with statuses := s.statuses ++ [notReceived] } := if_pos h

theorem step_unstarted {s : Scan} (hs : s.firstReceived = false) {entry : UInt32 × UInt64}
    (h : entry.2 ≠ 0) :
    s.step data count entry = (s.start data count entry.2.toNat).step data count entry := by
  simp [Scan.step, h, hs, Scan.start]

theorem step_started {s : Scan} (hs : s.firstReceived = true) {entry : UInt32 × UInt64}
    (h : entry.2 ≠ 0) (htime : s.time < 2 ^ 64)
    (hd : |stepTo 250 s.time entry.2.toNat| ≤ 2 ^ 15) :
    s.step data count entry = { s with
      deltas := s.deltas ++ [stepTo 250 s.time entry.2.toNat]
      statuses := s.statuses ++ [statusOf (stepTo 250 s.time entry.2.toNat)]
      time := (s.time + stepTo 250 s.time entry.2.toNat * 250).toNat } := by
  have hclock := clock_mem s.time entry.2.toNat
  have hentry := entry.2.toNat_lt
  have hmul : int32 (stepTo 250 s.time entry.2.toNat * 250) =
      stepTo 250 s.time entry.2.toNat * 250 := by
    apply int32_eq
    rw [abs_le] at hd ⊢
    omega
  have hmod : (s.time + stepTo 250 s.time entry.2.toNat * 250) % 2 ^ 64 =
      s.time + stepTo 250 s.time entry.2.toNat * 250 := by
    apply Int.emod_eq_of_lt hclock.1
    omega
  simp only [Scan.step, h, hs, if_false, if_true, deltaTo_eq hd, hmul, hmod]

theorem start_time_lt (s : Scan) (t : ℕ) : (s.start data count t).time < 2 ^ 64 := by
  have hle := Nat.and_le_right (n := t / 64000) (m := 0x7FFFFF)
  simp only [Scan.start]
  omega

/-- From the first arrival on, the loop collects the moves of a clock that follows the
arrivals. -/
theorem foldl_step_started (l : List (UInt32 × UInt64)) {s : Scan} (hs : s.firstReceived = true)
    (htime : s.time < 2 ^ 64)
    (hd : ∀ d ∈ (moves 250 s.time (l.map target)).reduceOption, |d| ≤ 2 ^ 15) :
    ∃ time, l.foldl (Scan.step data count) s = { s with
      time
      deltas := s.deltas ++ (moves 250 s.time (l.map target)).reduceOption
      statuses := s.statuses ++ (moves 250 s.time (l.map target)).map label } := by
  induction l generalizing s with
  | nil => exact ⟨s.time, by simp [moves]⟩
  | cons e l ih =>
    by_cases he : e.2 = 0
    · rw [List.map_cons, target_zero he] at hd ⊢
      simp only [moves, List.reduceOption_cons_of_none] at hd ⊢
      rw [List.foldl_cons, step_absent data count s he]
      obtain ⟨time, h⟩ := ih (s := { s with statuses := s.statuses ++ [notReceived] }) hs htime
        hd
      exact ⟨time, by rw [h]; simp [label]⟩
    · rw [List.map_cons, target_arrival he] at hd ⊢
      simp only [moves, List.reduceOption_cons_of_some, List.forall_mem_cons] at hd ⊢
      have hclock := clock_mem s.time e.2.toNat
      have hcast := Int.toNat_of_nonneg hclock.1
      have hlt := e.2.toNat_lt
      rw [List.foldl_cons, step_started data count hs he htime hd.1]
      obtain ⟨time, h⟩ := ih (s := { s with
          deltas := s.deltas ++ [stepTo 250 s.time e.2.toNat]
          statuses := s.statuses ++ [statusOf (stepTo 250 s.time e.2.toNat)]
          time := (s.time + stepTo 250 s.time e.2.toNat * 250).toNat }) hs
        (by simp only; omega) (by simpa only [hcast] using hd.2)
      exact ⟨time, by rw [h]; simp [label, hcast]⟩

/-- Before the first arrival only statuses are collected; the first arrival starts the clock. -/
theorem foldl_step_unstarted (l : List (UInt32 × UInt64)) {s : Scan}
    (hs : s.firstReceived = false) {t : ℕ}
    (ht : (l.map target).reduceOption.head? = some (t : ℤ))
    (hd : ∀ d ∈ (moves 250 (s.start data count t).time (l.map target)).reduceOption,
      |d| ≤ 2 ^ 15) :
    ∃ time, l.foldl (Scan.step data count) s = { s.start data count t with
      time
      deltas := s.deltas ++ (moves 250 (s.start data count t).time (l.map target)).reduceOption
      statuses := s.statuses ++
        (moves 250 (s.start data count t).time (l.map target)).map label } := by
  induction l generalizing s with
  | nil => simp at ht
  | cons e l ih =>
    by_cases he : e.2 = 0
    · rw [List.map_cons, target_zero he] at hd ht ⊢
      simp only [moves, List.reduceOption_cons_of_none] at hd ht ⊢
      rw [List.foldl_cons, step_absent data count s he]
      obtain ⟨time, h⟩ := ih (s := { s with statuses := s.statuses ++ [notReceived] }) hs ht hd
      exact ⟨time, by rw [h]; simp [label, Scan.start]⟩
    · have het : e.2.toNat = t := by
        rw [List.map_cons, target_arrival he] at ht
        simpa using ht
      -- The step of the first arrival is a step of the started scan.
      rw [List.foldl_cons, step_unstarted data count hs he, het, ← List.foldl_cons]
      exact foldl_step_started data count (e :: l) rfl (start_time_lt data count s t) hd

section Output

theorem length_statuses_foldl (l : List (UInt32 × UInt64)) (s : Scan) :
    (l.foldl (Scan.step data count) s).statuses.length = s.statuses.length + l.length := by
  induction l generalizing s with
  | nil => rfl
  | cons e l ih =>
    have hstep : (s.step data count e).statuses.length = s.statuses.length + 1 := by
      unfold Scan.step
      split
      case isTrue => simp
      case isFalse => cases s.firstReceived <;> simp [Scan.start]
    rw [List.foldl_cons, ih, hstep, List.length_cons]
    omega

theorem foldl_output_started (l : List (UInt32 × UInt64)) {s : Scan}
    (hs : s.firstReceived = true) : (l.foldl (Scan.step data count) s).buffer = s.buffer ∧
      (l.foldl (Scan.step data count) s).len = s.len := by
  induction l generalizing s with
  | nil => exact ⟨rfl, rfl⟩
  | cons e l ih =>
    have hstep : (s.step data count e).firstReceived = true ∧
        (s.step data count e).buffer = s.buffer ∧ (s.step data count e).len = s.len := by
      simp only [Scan.step, hs, if_true]
      split <;> simp
    obtain ⟨hfirst, hbuffer, hlen⟩ := hstep
    rw [List.foldl_cons, ← hbuffer, ← hlen]
    exact ih hfirst

/-- Whatever the times are, the loop writes when it comes to the first arrival and only then. -/
theorem foldl_output (l : List (UInt32 × UInt64)) {s : Scan} (hs : s.firstReceived = false)
    {t : ℕ} (ht : (l.map target).reduceOption.head? = some (t : ℤ)) :
    (l.foldl (Scan.step data count) s).buffer = (s.start data count t).buffer ∧
      (l.foldl (Scan.step data count) s).len = (s.start data count t).len := by
  induction l generalizing s with
  | nil => simp at ht
  | cons e l ih =>
    by_cases he : e.2 = 0
    · rw [List.map_cons, target_zero he, List.reduceOption_cons_of_none] at ht
      rw [List.foldl_cons, step_absent data count s he]
      exact ih (s := { s with statuses := s.statuses ++ [notReceived] }) hs ht
    · have het : e.2.toNat = t := by
        rw [List.map_cons, target_arrival he] at ht
        simpa using ht
      rw [List.foldl_cons, step_unstarted data count hs he, het, ← List.foldl_cons]
      exact foldl_output_started data count (e :: l) rfl

end Output

def arrivals (fb : TransportCCFeedBack) : List ℤ := (fb.packets.toList.map target).reduceOption

theorem exists_head_arrivals {fb : TransportCCFeedBack} {e : UInt32 × UInt64}
    (he : e ∈ fb.packets.toList) (h0 : e.2 ≠ 0) : ∃ first ∈ fb.packets.toList, first.2 ≠ 0 ∧
      (arrivals fb).head? = some (first.2.toNat : ℤ) := by
  have hne : arrivals fb ≠ [] := by
    refine List.ne_nil_of_mem (a := (e.2.toNat : ℤ)) ?_
    exact List.reduceOption_mem_iff.mpr (List.mem_map.mpr ⟨e, he, target_arrival h0⟩)
  obtain ⟨first, hfirst, heq⟩ :=
    List.mem_map.mp (List.reduceOption_mem_iff.mp (List.head_mem hne))
  have hfirst0 : first.2 ≠ 0 := by
    intro hzero
    rw [target_zero hzero] at heq
    cases heq
  rw [target_arrival hfirst0, Option.some.injEq] at heq
  exact ⟨first, hfirst, hfirst0, by rw [List.head?_eq_some_head hne, heq]⟩

/-- The feedback that the message layout can express: the numbers `k`, ..., `k + n - 1`, an
arrival, times that fit the 24-bit reference and gaps that fit a 16-bit delta. -/
structure Representable (fb : TransportCCFeedBack) (k n : ℕ) : Prop where
  mem_iff : ∀ s : UInt32, s ∈ fb.packets ↔ k ≤ s.toNat ∧ s.toNat < k + n
  one_le : 1 ≤ n
  le : n ≤ 65535
  below : k + n ≤ 65536
  received : ∃ (s : UInt32) (t : UInt64), fb.packets[s]? = some t ∧ t ≠ 0
  time_lt : ∀ (s : UInt32) (t : UInt64), fb.packets[s]? = some t → t ≠ 0 →
    t.toNat < 2 ^ 23 * 64000
  gap_le : (arrivals fb).IsChain fun a b ↦ |b - a| ≤ 8000000

variable {fb : TransportCCFeedBack} {k n : ℕ}

namespace Representable

theorem keys_eq (h : Representable fb k n) :
    fb.packets.keys.map UInt32.toNat = List.range' k n := by
  have hkeys : (fb.packets.keys.map UInt32.toNat).Pairwise (· < ·) := by
    rw [List.pairwise_map]
    refine fb.packets.ordered_keys.imp fun hab ↦ ?_
    exact UInt32.lt_iff_toNat_lt.mp (Std.compare_eq_lt.mp hab)
  refine hkeys.eq_of_mem_iff List.pairwise_lt_range' fun i ↦ ?_
  rw [List.mem_range'_1, List.mem_map]
  constructor
  · intro h
    obtain ⟨s, hs, rfl⟩ := h
    exact (h.mem_iff s).mp (fb.packets.mem_keys.mp hs)
  · intro hi
    have hmod : (UInt32.ofNat i).toNat = i :=
      UInt32.toNat_ofNat_of_lt' (hi.2.trans_le (h.below.trans (by decide)))
    refine ⟨UInt32.ofNat i, fb.packets.mem_keys.mpr ((h.mem_iff _).mpr ?_), hmod⟩
    rwa [hmod]

theorem numbers_eq (h : Representable fb k n) :
    fb.packets.toList.map (fun e ↦ e.1.toNat) = List.range' k n := by
  rw [← h.keys_eq, ← fb.packets.map_fst_toList_eq_keys, List.map_map]
  rfl

theorem length_toList (h : Representable fb k n) : fb.packets.toList.length = n := by
  have hlen := congrArg List.length h.numbers_eq
  rwa [List.length_map, List.length_range'] at hlen

theorem getElem_toList (h : Representable fb k n) {i : ℕ} (hi : i < fb.packets.toList.length) :
    fb.packets.toList[i].1.toNat = k + i := by
  have hget := List.getElem_of_eq h.numbers_eq (i := i) (by rwa [List.length_map])
  simpa using hget

theorem getElem?_toList (h : Representable fb k n) {i : ℕ} (hi : i < n) {t : UInt64}
    (ht : fb.packets[UInt32.ofNat (k + i)]? = some t) :
    fb.packets.toList[i]? = some (UInt32.ofNat (k + i), t) := by
  have hi' : i < fb.packets.toList.length := h.length_toList ▸ hi
  have hofNat : UInt32.ofNat (k + i) = (fb.packets.toList[i]).1 := by
    rw [← h.getElem_toList hi', UInt32.ofNat_toNat]
  have hmem : fb.packets[(fb.packets.toList[i]).1]? = some (fb.packets.toList[i]).2 :=
    fb.packets.mem_toList_iff_getElem?_eq_some.mp (List.getElem_mem hi')
  rw [hofNat, hmem] at ht
  rw [List.getElem?_eq_getElem hi', hofNat, ← Option.some.inj ht]

theorem toNat_lt (h : Representable fb k n) {e : UInt32 × UInt64} (he : e ∈ fb.packets.toList) :
    e.2.toNat < 2 ^ 23 * 64000 := by
  by_cases h0 : e.2 = 0
  · simp [h0]
  · exact h.time_lt e.1 e.2 (fb.packets.mem_toList_iff_getElem?_eq_some.mp he) h0

theorem exists_first (h : Representable fb k n) :
    ∃ t : ℕ, (arrivals fb).head? = some (t : ℤ) ∧ t < 2 ^ 23 * 64000 := by
  obtain ⟨s, t, hs, ht⟩ := h.received
  have hmem := fb.packets.mem_toList_iff_getElem?_eq_some.mpr hs
  obtain ⟨e, he, -, hhead⟩ := exists_head_arrivals hmem ht
  exact ⟨e.2.toNat, hhead, h.toNat_lt he⟩

theorem head_toList (h : Representable fb k n) :
    fb.packets.toList.head?.elim 0 (fun e ↦ e.1.toUInt16) = UInt16.ofNat k := by
  have hpos : 0 < fb.packets.toList.length := h.length_toList ▸ h.one_le
  have hfirst := h.getElem_toList hpos
  have hle := h.below
  rw [List.head?_eq_getElem?, List.getElem?_eq_getElem hpos, Option.elim_some]
  apply UInt16.toNat_inj.mp
  rw [UInt32.toNat_toUInt16, hfirst, UInt16.toNat_ofNat']
  omega

end Representable

/-- The first eight bytes of a message. The 16-bit feedback count starts at the eighth, so
what stands there is its upper half. -/
def header (base count : UInt16) (word : UInt32) (feedbackCount : UInt16) : List UInt8 :=
  writeBE16 base ++ writeBE16 count ++
    [(word >>> 24).toUInt8, (word >>> 16).toUInt8, (word >>> 8).toUInt8,
      (feedbackCount >>> 8).toUInt8]

theorem write_header (b : Buffer) (data : ℕ) (base count : UInt16) (word : UInt32)
    (feedbackCount : UInt16) {rest : List UInt8} (hrest : rest ≠ []) :
    write (write (write (write (write b data (writeBE16 base)) (data + 2) (writeBE16 count))
      (data + 4) (writeBE32 word)) (data + 7) (writeBE16 feedbackCount)) (data + 8) rest =
      write b data (header base count word feedbackCount ++ rest) := by
  have hpos : 1 ≤ rest.length := List.length_pos_iff.mpr hrest
  have hcount (b : Buffer) :
      write (write b (data + 7) (writeBE16 feedbackCount)) (data + 8) rest =
        write b (data + 7) ([(feedbackCount >>> 8).toUInt8] ++ rest) :=
    write_write_overlap b (data + 7) [(feedbackCount >>> 8).toUInt8] hpos
  have hword (b : Buffer) (l : List UInt8) (hl : 1 ≤ l.length) :
      write (write b (data + 4) (writeBE32 word)) (data + 7) l = write b (data + 4)
        ([(word >>> 24).toUInt8, (word >>> 16).toUInt8, (word >>> 8).toUInt8] ++ l) :=
    write_write_overlap b (data + 4)
      [(word >>> 24).toUInt8, (word >>> 16).toUInt8, (word >>> 8).toUInt8] hl
  have hjoin (b : Buffer) (off : ℕ) (v : UInt16) (l : List UInt8) :
      write (write b off (writeBE16 v)) (off + 2) l = write b off (writeBE16 v ++ l) :=
    write_write_append b off (writeBE16 v) l
  rw [hcount, hword _ _ (by simp), hjoin, hjoin, header]
  simp only [List.append_assoc, List.cons_append, List.nil_append]

def clockMoves (fb : TransportCCFeedBack) (t : ℕ) : List (Option ℤ) :=
  moves 250 (t / 64000 * 64000 : ℕ) (fb.packets.toList.map target)

def body (statuses : List PacketStatus) (deltas : List ℤ) (pad : ℕ) : List UInt8 :=
  chunkBytes statuses ++ (deltaBytes deltas ++ List.replicate pad 0)

def message (fb : TransportCCFeedBack) (k n t pad : ℕ) : List UInt8 :=
  header (UInt16.ofNat k) (UInt16.ofNat n) (UInt32.ofNat (t / 64000 * 256))
      fb.feedbackPacketCount.toUInt16 ++
    body ((clockMoves fb t).map label) (clockMoves fb t).reduceOption pad

theorem write_body (s : Scan) (data : ℕ) : ∃ pad < 4,
    writePadding data
      (s.deltas.foldl (writeDelta data) (writeChunks s.statuses data 0 s.buffer s.len)).1
      (s.deltas.foldl (writeDelta data) (writeChunks s.statuses data 0 s.buffer s.len)).2 =
    (write s.buffer (data + s.len) (body s.statuses s.deltas pad),
      s.len + (body s.statuses s.deltas pad).length) := by
  rw [foldl_writeDelta_eq, writeChunks_eq, List.drop_zero, writePadding_eq]
  generalize hpad : (4 - (s.len + (chunkBytes s.statuses).length +
    (deltaBytes s.deltas).length) % 4) % 4 = pad
  refine ⟨pad, by omega, Prod.ext ?_ ?_⟩
  · simp only [body, ← write_write_append, Nat.add_assoc]
  · simp only [body, List.length_append, List.length_replicate, Nat.add_assoc]

theorem reference_time {t : ℕ} (ht : t < 2 ^ 23 * 64000) :
    (t / 64000) &&& 0x7FFFFF = t / 64000 := by
  have hand := Nat.and_two_pow_sub_one_eq_mod (t / 64000) 23
  rw [show 2 ^ 23 - 1 = 0x7FFFFF from rfl] at hand
  omega

theorem Representable.length_clockMoves (h : Representable fb k n) (t : ℕ) :
    (clockMoves fb t).length = n := by
  rw [clockMoves, length_moves, List.length_map, h.length_toList]

theorem Representable.abs_clockMoves_le (h : Representable fb k n) {t : ℕ}
    (ht : (arrivals fb).head? = some (t : ℤ)) :
    ∀ d ∈ (clockMoves fb t).reduceOption, |d| ≤ 32000 := by
  refine abs_moves_le (by decide) (fun u hu ↦ ?_) h.gap_le
  have hu' : u = t := by
    rw [arrivals] at ht
    rw [ht] at hu
    exact (Option.some.inj hu).symm
  rw [hu', abs_of_nonneg (by omega)]
  omega

def baseNumber (fb : TransportCCFeedBack) : UInt16 :=
  fb.packets.toList.head?.elim 0 fun e ↦ e.1.toUInt16

theorem length_scan_statuses (fb : TransportCCFeedBack) (b : Buffer) (data : ℕ) :
    (fb.scan b data).statuses.length = fb.packets.size := by
  rw [TransportCCFeedBack.scan, length_statuses_foldl, fb.packets.length_toList]
  exact Nat.zero_add _

theorem scan_statuses_ne_nil (hne : fb.packets.isEmpty = false) (b : Buffer) (data : ℕ) :
    (fb.scan b data).statuses ≠ [] := by
  apply List.ne_nil_of_length_pos
  rw [length_scan_statuses, ← fb.packets.length_toList, List.length_pos_iff,
    ← List.isEmpty_eq_false_iff, fb.packets.isEmpty_toList]
  exact hne

theorem serialize_body (hne : fb.packets.isEmpty = false) (b : Buffer) (data : ℕ) : ∃ pad < 4,
    fb.serialize b data = (write (fb.scan b data).buffer (data + (fb.scan b data).len)
      (body (fb.scan b data).statuses (fb.scan b data).deltas pad), (fb.scan b data).len +
      (body (fb.scan b data).statuses (fb.scan b data).deltas pad).length) := by
  obtain ⟨pad, hpad, hbody⟩ := write_body (fb.scan b data) data
  rw [TransportCCFeedBack.serialize, hne]
  exact ⟨pad, hpad, hbody⟩

theorem body_ne_nil {statuses : List PacketStatus} (h : statuses ≠ []) (deltas : List ℤ)
    (pad : ℕ) : body statuses deltas pad ≠ [] := by
  rw [body, chunkBytes, if_neg h, writeBE16]
  simp

/-- With an arrival at `t` as the first one, the header is complete and the body stands behind
it. -/
theorem serialize_headed {t : ℕ} (ht : (arrivals fb).head? = some (t : ℤ)) (b : Buffer)
    (data : ℕ) : ∃ pad < 4,
    let out := header (baseNumber fb) (UInt16.ofNat fb.packets.size)
        (UInt32.ofNat (((t / 64000) &&& 0x7FFFFF) * 256)) fb.feedbackPacketCount.toUInt16 ++
      body (fb.scan b data).statuses (fb.scan b data).deltas pad
    fb.serialize b data = (write b data out, out.length) := by
  have hne : fb.packets.isEmpty = false := by
    rw [← fb.packets.isEmpty_toList, List.isEmpty_eq_false_iff]
    intro hnil
    rw [arrivals, hnil] at ht
    cases ht
  obtain ⟨pad, hpad, hser⟩ := serialize_body hne b data
  obtain ⟨hbuffer, hlen⟩ := foldl_output data fb.feedbackPacketCount fb.packets.toList
    (s := fb.scanInit b data) rfl ht
  refine ⟨pad, hpad, ?_⟩
  intro out
  rw [hser, TransportCCFeedBack.scan, hbuffer, hlen, ← TransportCCFeedBack.scan]
  simp only [Scan.start, TransportCCFeedBack.scanInit, Nat.shiftLeft_eq]
  rw [write_header _ _ _ _ _ _ (body_ne_nil (scan_statuses_ne_nil hne b data) _ _)]
  simp only [out, List.length_append]
  rfl

theorem scan_eq (h : Representable fb k n) (b : Buffer) (data : ℕ) {t : ℕ}
    (ht : (arrivals fb).head? = some (t : ℤ)) (hlt : t < 2 ^ 23 * 64000) :
    (fb.scan b data).statuses = (clockMoves fb t).map label ∧
      (fb.scan b data).deltas = (clockMoves fb t).reduceOption := by
  have htime : ((fb.scanInit b data).start data fb.feedbackPacketCount t).time =
      t / 64000 * 64000 := by
    simp only [Scan.start, reference_time hlt]
  have hscan := foldl_step_unstarted data fb.feedbackPacketCount fb.packets.toList
    (s := fb.scanInit b data) rfl ht
  rw [htime] at hscan
  obtain ⟨time, hscan⟩ := hscan fun d hd ↦ (h.abs_clockMoves_le ht d hd).trans (by decide)
  rw [TransportCCFeedBack.scan, hscan]
  exact ⟨rfl, rfl⟩

theorem serialize_eq (h : Representable fb k n) (b : Buffer) (data : ℕ) : ∃ t pad : ℕ,
    (arrivals fb).head? = some (t : ℤ) ∧ t < 2 ^ 23 * 64000 ∧
    fb.serialize b data =
      (write b data (message fb k n t pad), (message fb k n t pad).length) := by
  obtain ⟨t, ht, hlt⟩ := h.exists_first
  have hsize : fb.packets.size = n := by rw [← fb.packets.length_toList, h.length_toList]
  obtain ⟨hstatuses, hdeltas⟩ := scan_eq h b data ht hlt
  obtain ⟨pad, -, hser⟩ := serialize_headed ht b data
  refine ⟨t, pad, ht, hlt, ?_⟩
  rw [hser, hstatuses, hdeltas, hsize, reference_time hlt, baseNumber, h.head_toList]
  rfl

theorem decode_header {base count r : ℕ} (hbase : base < 65536) (hcount : count < 65536)
    (hr : r < 2 ^ 24) (feedbackCount : UInt16) (rest : List UInt8) :
    decode (header (UInt16.ofNat base) (UInt16.ofNat count) (UInt32.ofNat (r * 256))
      feedbackCount ++ rest) =
      (readStatuses count rest).bind fun l ↦ (readMoves l.1 l.2).map fun moves ↦
        ⟨base, count, l.1, replay 250 ((r : ℤ) * 64000) moves⟩ := by
  have h16 {v : ℕ} (hv : v < 65536) : 256 * (UInt16.ofNat v >>> 8).toUInt8.toNat +
      (UInt16.ofNat v).toUInt8.toNat = v := by
    rw [writeBE16_toNat, UInt16.toNat_ofNat_of_lt' hv]
  have h24 : (65536 : ℤ) * (UInt32.ofNat (r * 256) >>> 24).toUInt8.toNat +
      (256 : ℤ) * (UInt32.ofNat (r * 256) >>> 16).toUInt8.toNat +
      (UInt32.ofNat (r * 256) >>> 8).toUInt8.toNat = (r : ℤ) := by
    have hw := congrArg UInt32.toNat (be32_writeBE32 (UInt32.ofNat (r * 256)))
    have hlast := (UInt32.ofNat (r * 256)).toUInt8.toNat_lt
    rw [be32_toNat, UInt32.toNat_ofNat_of_lt' (by simp only [UInt32.size]; omega)] at hw
    omega
  simp only [header, writeBE16, List.cons_append, List.nil_append, decode, h16 hbase, h16 hcount,
    h24]
  cases readStatuses count rest <;> rfl

theorem decode_message (h : Representable fb k n) {t : ℕ}
    (ht : (arrivals fb).head? = some (t : ℤ)) (hlt : t < 2 ^ 23 * 64000) (pad : ℕ) :
    decode (message fb k n t pad) = some ⟨k, n, (clockMoves fb t).map label,
      replay 250 (t / 64000 * 64000 : ℕ) (clockMoves fb t)⟩ := by
  have hk : k < 65536 := by have := h.one_le; have := h.below; omega
  have hstatuses := readStatuses_chunkBytes ((clockMoves fb t).map label)
    (deltaBytes (clockMoves fb t).reduceOption ++ List.replicate pad 0)
  have hmoves := readMoves_deltaBytes (clockMoves fb t) (List.replicate pad 0)
  rw [map_int16_eq (fun d hd ↦ by
    have := abs_le.mp (h.abs_clockMoves_le ht d hd)
    omega)] at hmoves
  rw [List.length_map, h.length_clockMoves] at hstatuses
  rw [message, body, decode_header hk (Nat.lt_succ_of_le h.le) (by omega), hstatuses]
  simp only [Option.bind_some, hmoves, Option.map_some, Nat.cast_mul, Nat.cast_ofNat]

/-- A decoded report agrees with the feedback it was made from. -/
structure Describes (r : Report) (fb : TransportCCFeedBack) (k n : ℕ) : Prop where
  base_eq : r.base = k
  count_eq : r.count = n
  length_eq : r.statuses.length = n
  notReceived_iff : ∀ i < n, ∀ t, fb.packets[UInt32.ofNat (k + i)]? = some t →
    (r.statuses[i]? = some notReceived ↔ t = 0)
  time_close : ∀ i < n, ∀ t, fb.packets[UInt32.ofNat (k + i)]? = some t → t ≠ 0 →
    ∃ x, r.times[i]? = some (some x) ∧ |x - t.toNat| < 250

theorem label_eq_notReceived_iff (m : Option ℤ) : label m = notReceived ↔ m.isNone = true := by
  cases m with
  | none => simp [label]
  | some d => simp only [label, statusOf]; split <;> simp

theorem getElem?_clockMoves_isNone (h : Representable fb k n) (t : ℕ) {i : ℕ} (hi : i < n)
    {u : UInt64} (hu : fb.packets[UInt32.ofNat (k + i)]? = some u) :
    ((clockMoves fb t)[i]?).map Option.isNone = some (decide (u = 0)) := by
  have hmap := congrArg (fun l ↦ l[i]?)
    (map_isNone_moves (q := 250) (t / 64000 * 64000 : ℕ) (fb.packets.toList.map target))
  rw [clockMoves]
  simp only [List.getElem?_map, h.getElem?_toList hi hu, Option.map_some] at hmap
  rw [hmap]
  by_cases h0 : u = 0
  · simp [target, h0]
  · simp [target, h0]

theorem serialize_decodes (h : Representable fb k n) (b : Buffer) (data : ℕ) :
    ∃ r, decode (bytes (fb.serialize b data).1 data (fb.serialize b data).2) = some r ∧
      Describes r fb k n := by
  obtain ⟨t, pad, ht, hlt, hser⟩ := serialize_eq h b data
  refine ⟨_, by rw [hser, bytes_write]; exact decode_message h ht hlt pad, rfl, rfl, ?_, ?_, ?_⟩
  · rw [List.length_map, h.length_clockMoves]
  · intro i hi u hu
    have hnone := getElem?_clockMoves_isNone h t hi hu
    obtain ⟨m, hm, hm'⟩ := Option.map_eq_some_iff.mp hnone
    simp only [List.getElem?_map, hm, Option.map_some, Option.some.injEq,
      label_eq_notReceived_iff, hm', decide_eq_true_eq]
  · intro i hi u hu h0
    have hget : (fb.packets.toList.map target)[i]? = some (some (u.toNat : ℤ)) := by
      rw [List.getElem?_map, h.getElem?_toList hi hu, Option.map_some, target_arrival h0]
    exact getElem?_replay_moves (by decide) (t / 64000 * 64000 : ℕ) hget

def sample : TransportCCFeedBack :=
  ((TransportCCFeedBack.insertPacket ⟨7, 0, ∅⟩ 100 5000100).insertPacket 101 0).insertPacket 102
    4999000

theorem toList_sample : sample.packets.toList = [(100, 5000100), (101, 0), (102, 4999000)] := by
  decide

theorem representable_sample : Representable sample 100 3 where
  mem_iff s := by
    rw [← sample.packets.mem_keys, ← sample.packets.map_fst_toList_eq_keys, toList_sample]
    simp only [List.map_cons, List.map_nil, List.mem_cons, List.not_mem_nil, or_false,
      ← UInt32.toNat_inj]
    simp only [UInt32.reduceToNat]
    omega
  one_le := by decide
  le := by decide
  below := by decide
  received := ⟨100, 5000100, by decide, by decide⟩
  time_lt s t h _ := by
    rw [← sample.packets.mem_toList_iff_getElem?_eq_some, toList_sample] at h
    simp only [List.mem_cons, List.not_mem_nil, or_false, Prod.mk.injEq] at h
    obtain ⟨-, rfl⟩ | ⟨-, rfl⟩ | ⟨-, rfl⟩ := h <;> decide
  gap_le := by
    have h : arrivals sample = [5000100, 4999000] := by
      rw [arrivals, toList_sample]
      decide
    simp [h]

theorem sample_decodes : Representable sample 100 3 ∧
    ∃ r, decode (bytes (sample.serialize malloc 0).1 0 (sample.serialize malloc 0).2) = some r ∧
      Describes r sample 100 3 :=
  ⟨representable_sample, serialize_decodes representable_sample malloc 0⟩

end Spadia.TransportCC.Serialized
