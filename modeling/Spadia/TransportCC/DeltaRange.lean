import Spadia.TransportCC.Wrap

namespace Spadia.TransportCC.DeltaRange

open Foundation DeltaClock ByteBuffer Feedback Encoding Serialized Wrap

/-- The quotient that a round of the loop converts to `int`. -/
def quotient (time t : ℕ) : ℕ := if t > time then (t - time) / 250 else (time - t) / 250

/-- The three numbers of one round stay in their types. -/
structure InTypes (time t : ℕ) : Prop where
  quotient_lt : quotient time t < 2 ^ 31
  product_mem : -2 ^ 31 ≤ deltaTo time t * 250 ∧ deltaTo time t * 250 < 2 ^ 31
  short_eq : int16 (deltaTo time t) = deltaTo time t

variable (data : ℕ) (count : UInt8)

def RoundInTypes (s : Scan) (entry : UInt32 × UInt64) : Prop :=
  entry.2 ≠ 0 →
    InTypes (if s.firstReceived then s else s.start data count entry.2.toNat).time entry.2.toNat

/-- All rounds of the loop stay in their types. -/
def LoopInTypes (s : Scan) : List (UInt32 × UInt64) → Prop
  | [] => True
  | e :: l => RoundInTypes data count s e ∧ LoopInTypes (s.step data count e) l

def InShort (d : ℤ) : Prop := -2 ^ 15 ≤ d ∧ d < 2 ^ 15

theorem inTypes_iff {time t : ℕ} : InTypes time t ↔ InShort (stepTo 250 time t) := by
  have hrange : ∀ d : ℤ, |d| ≤ 2 ^ 15 ↔ -2 ^ 15 ≤ d ∧ d ≤ 2 ^ 15 := fun d ↦ abs_le
  constructor
  · intro h
    have hquotient := h.quotient_lt
    have hshort := h.short_eq
    unfold quotient at hquotient
    unfold deltaTo at hshort
    split at hquotient
    case isTrue hlt =>
      rw [stepTo_of_lt hlt]
      rw [if_pos hlt] at hshort
      unfold int16 int32 at hshort
      unfold InShort
      omega
    case isFalse hle =>
      rw [stepTo_of_le (Nat.le_of_not_lt hle)]
      rw [if_neg hle] at hshort
      unfold int16 int32 at hshort
      unfold InShort
      omega
  · intro h
    have hdelta : deltaTo time t = stepTo 250 time t := by
      apply deltaTo_eq
      rw [hrange]
      exact ⟨h.1, h.2.le⟩
    unfold InShort at h
    refine ⟨?_, ?_, ?_⟩
    · unfold quotient
      split
      case isTrue hlt =>
        rw [stepTo_of_lt hlt] at h
        omega
      case isFalse hle =>
        rw [stepTo_of_le (Nat.le_of_not_lt hle)] at h
        omega
    · rw [hdelta]
      omega
    · rw [hdelta]
      exact int16_eq (by omega) (by omega)

theorem loopInTypes_absent (l : List (UInt32 × UInt64)) (s : Scan)
    (hl : (l.map target).reduceOption = []) : LoopInTypes data count s l := by
  induction l generalizing s with
  | nil => trivial
  | cons e l ih =>
    by_cases he : e.2 = 0
    · rw [List.map_cons, target_zero he, List.reduceOption_cons_of_none] at hl
      exact ⟨fun hne ↦ absurd he hne, ih _ hl⟩
    · rw [List.map_cons, target_arrival he, List.reduceOption_cons_of_some] at hl
      cases hl

/-- As long as the moves fit, the clock of the loop is the ideal one. -/
theorem loopInTypes_started_iff (l : List (UInt32 × UInt64)) {s : Scan}
    (hs : s.firstReceived = true) (htime : s.time < 2 ^ 64) : LoopInTypes data count s l ↔
      ∀ d ∈ (moves 250 s.time (l.map target)).reduceOption, InShort d := by
  induction l generalizing s with
  | nil => simp [LoopInTypes, moves]
  | cons e l ih =>
    rw [LoopInTypes, RoundInTypes, if_pos hs]
    by_cases he : e.2 = 0
    · have hrest := ih (s := { s with statuses := s.statuses ++ [.notReceived] }) hs htime
      rw [List.map_cons, target_zero he, moves, List.reduceOption_cons_of_none,
        step_absent data count s he, hrest]
      exact and_iff_right fun hne ↦ absurd he hne
    · rw [List.map_cons, target_arrival he, moves, List.reduceOption_cons_of_some,
        List.forall_mem_cons, imp_iff_right he, inTypes_iff]
      apply and_congr_right
      intro hshort
      have habs : |stepTo 250 s.time e.2.toNat| ≤ 2 ^ 15 := abs_le.mpr ⟨hshort.1, hshort.2.le⟩
      have hclock := clock_mem s.time e.2.toNat
      have hlt := e.2.toNat_lt
      rw [step_started data count hs he htime habs, ih (by exact hs) (by simp only; omega),
        Int.toNat_of_nonneg hclock.1]

theorem loopInTypes_start (l : List (UInt32 × UInt64)) {s : Scan} (hs : s.firstReceived = false)
    {e : UInt32 × UInt64} (he : e.2 ≠ 0) : LoopInTypes data count s (e :: l) ↔
      LoopInTypes data count (s.start data count e.2.toNat) (e :: l) := by
  have hfirst : (s.start data count e.2.toNat).firstReceived = true := rfl
  rw [LoopInTypes, LoopInTypes, RoundInTypes, RoundInTypes, if_pos hfirst, hs,
    step_unstarted data count hs he]
  rfl

/-- A first arrival beyond one period of the reference time is too far away. -/
theorem not_inShort_start {t : ℕ} (h : 2 ^ 23 * 64000 ≤ t) :
    ¬ InShort (stepTo 250 (startTime t) t) := by
  have hq := quotient_eq t
  have hlt : startTime t < t := by
    rw [startTime_eq]
    omega
  rw [stepTo_of_lt hlt, hq]
  unfold InShort
  omega

theorem loopInTypes_unstarted_iff (l : List (UInt32 × UInt64)) {s : Scan}
    (hs : s.firstReceived = false) {t : ℕ}
    (ht : (l.map target).reduceOption.head? = some (t : ℤ)) : LoopInTypes data count s l ↔
      t < 2 ^ 23 * 64000 ∧
      ∀ d ∈ (moves 250 (t / 64000 * 64000 : ℕ) (l.map target)).reduceOption, InShort d := by
  induction l generalizing s with
  | nil => simp at ht
  | cons e l ih =>
    by_cases he : e.2 = 0
    · rw [List.map_cons, target_zero he, List.reduceOption_cons_of_none] at ht
      have hrest := ih (s := { s with statuses := s.statuses ++ [.notReceived] }) hs ht
      rw [LoopInTypes, step_absent data count s he, hrest, List.map_cons, target_zero he, moves,
        List.reduceOption_cons_of_none]
      exact and_iff_right fun hne ↦ absurd he hne
    · have het : e.2.toNat = t := by
        rw [List.map_cons, target_arrival he] at ht
        simpa using ht
      have hstart : (s.start data count t).time = startTime t := rfl
      rw [loopInTypes_start data count l hs he, het,
        loopInTypes_started_iff data count (e :: l) rfl (start_time_lt data count s t), hstart]
      by_cases hlt : t < 2 ^ 23 * 64000
      · rw [startTime, reference_time hlt]
        exact (and_iff_right hlt).symm
      · refine iff_of_false ?_ (fun h ↦ hlt h.1)
        intro hall
        apply not_inShort_start (Nat.le_of_not_lt hlt)
        apply hall
        rw [List.map_cons, target_arrival he, moves, List.reduceOption_cons_of_some, het]
        exact List.mem_cons_self ..

variable {fb : TransportCCFeedBack}

theorem serialize_eq_zero_iff (fb : TransportCCFeedBack) (b : Buffer) (data : ℕ) :
    (fb.serialize b data).2 = 0 ↔ fb.packets.isEmpty = true := by
  cases hempty : fb.packets.isEmpty with
  | true => simp [TransportCCFeedBack.serialize, hempty]
  | false =>
    refine iff_of_false ?_ Bool.false_ne_true
    intro hzero
    obtain ⟨pad, -, hser⟩ := serialize_body hempty b data
    rw [hser] at hzero
    have hbody := body_ne_nil (scan_statuses_ne_nil hempty b data) (fb.scan b data).deltas pad
    have hpos := List.length_pos_iff.mpr hbody
    omega

/-- The first loop of `Serialize` stays in its types exactly if there is no arrival, or the first
one is in the first period of the reference time and every arrival is at most a 16-bit number of
quanta away from the ideal clock that follows them. -/
theorem serialize_inTypes_iff (fb : TransportCCFeedBack) (b : Buffer) (data : ℕ) :
    (fb.serialize b data).2 = 0 ∨
      LoopInTypes data fb.feedbackPacketCount (fb.scanInit b data) fb.packets.toList ↔
    ∀ t : ℕ, (arrivals fb).head? = some (t : ℤ) → t < 2 ^ 23 * 64000 ∧
      ∀ d ∈ (clockMoves fb t).reduceOption, InShort d := by
  have hloop : (fb.serialize b data).2 = 0 →
      LoopInTypes data fb.feedbackPacketCount (fb.scanInit b data) fb.packets.toList := by
    intro hzero
    rw [serialize_eq_zero_iff, ← fb.packets.isEmpty_toList, List.isEmpty_iff] at hzero
    rw [hzero]
    trivial
  rw [or_iff_right_of_imp hloop]
  by_cases harrival : ∃ e ∈ fb.packets.toList, e.2 ≠ 0
  · obtain ⟨e, he, h0⟩ := harrival
    obtain ⟨first, -, -, hhead⟩ := exists_head_arrivals he h0
    rw [loopInTypes_unstarted_iff _ _ _ rfl hhead]
    constructor
    · intro h t ht
      obtain rfl : first.2.toNat = t := Int.ofNat_inj.mp (Option.some.inj (hhead.symm.trans ht))
      exact h
    · intro h
      exact h _ hhead
  · have hnil : arrivals fb = [] := by
      apply List.eq_nil_iff_forall_not_mem.mpr
      intro t ht
      obtain ⟨e, he, htarget⟩ := List.mem_map.mp (List.reduceOption_mem_iff.mp ht)
      rw [target_zero (not_not.mp fun h0 ↦ harrival ⟨e, he, h0⟩)] at htarget
      cases htarget
    refine iff_of_true (loopInTypes_absent _ _ _ _ hnil) ?_
    intro t ht
    rw [hnil] at ht
    cases ht

/-- The time of a packet of the year 2023 leaves the types in the first round. -/
theorem single_2023_not_inTypes :
    let fb := single 0 5 1700000000123456
    2 ^ 31 ≤ quotient (startTime 1700000000123456) 1700000000123456 ∧
    ¬ ((fb.serialize malloc 0).2 = 0 ∨
      LoopInTypes 0 fb.feedbackPacketCount (fb.scanInit malloc 0) fb.packets.toList) := by
  intro fb
  refine ⟨by decide, ?_⟩
  intro h
  rcases h with hzero | hloop
  · rw [serialize_eq_zero_iff, ← fb.packets.isEmpty_toList, toList_single] at hzero
    cases hzero
  · rw [toList_single] at hloop
    have hround := hloop.1 (by decide)
    exact absurd hround.quotient_lt (by decide)

end Spadia.TransportCC.DeltaRange
