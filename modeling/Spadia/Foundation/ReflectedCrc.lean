import Mathlib.Data.List.GetD
import Mathlib.Logic.Function.Iterate

namespace Spadia.Foundation.ReflectedCrc

variable {w : ℕ} (poly : BitVec w)

/-- One step of the division by the polynomial, lowest bit first. -/
def divStep (c : BitVec w) : BitVec w := if c.getLsbD 0 then (c >>> 1) ^^^ poly else c >>> 1

/-- One bit of the message goes into the remainder. -/
def feed (c : BitVec w) (bit : Bool) : BitVec w :=
  if c.getLsbD 0 ^^ bit then (c >>> 1) ^^^ poly else c >>> 1

/-- The lowest `n` bits of `b`, lowest bit first. -/
def lowBits (n : ℕ) (b : BitVec w) : List Bool := (List.range n).map b.getLsbD

variable {poly}

theorem divStep_xor (a b : BitVec w) :
    divStep poly (a ^^^ b) = divStep poly a ^^^ divStep poly b := by
  have hcancel (x y : BitVec w) : x ^^^ y = (x ^^^ poly) ^^^ (y ^^^ poly) := by
    rw [BitVec.xor_assoc, BitVec.xor_comm y poly, ← BitVec.xor_assoc poly poly y, BitVec.xor_self,
      BitVec.zero_xor]
  unfold divStep
  rw [BitVec.getLsbD_xor, BitVec.ushiftRight_xor_distrib]
  cases a.getLsbD 0 <;> cases b.getLsbD 0
  · rfl
  · exact BitVec.xor_assoc _ _ _
  · simp only [Bool.bne_false, if_true, Bool.false_eq_true, if_false]
    rw [BitVec.xor_assoc, BitVec.xor_comm (b >>> 1) poly, ← BitVec.xor_assoc]
  · exact hcancel _ _

theorem iterate_divStep_xor (n : ℕ) (a b : BitVec w) :
    (divStep poly)^[n] (a ^^^ b) = (divStep poly)^[n] a ^^^ (divStep poly)^[n] b := by
  induction n generalizing a b with
  | zero => rfl
  | succ n ih => rw [Function.iterate_succ_apply, divStep_xor, ih]; rfl

theorem divStep_of_even {c : BitVec w} (h : c.getLsbD 0 = false) : divStep poly c = c >>> 1 := by
  rw [divStep, h]
  rfl

/-- Bits that are clear are only moved out. -/
theorem iterate_divStep_clear (n : ℕ) {c : BitVec w} (h : ∀ i < n, c.getLsbD i = false) :
    (divStep poly)^[n] c = c >>> n := by
  induction n generalizing c with
  | zero => rfl
  | succ n ih =>
    rw [Function.iterate_succ_apply, divStep_of_even (h 0 (Nat.succ_pos n)), ih]
    · rw [← BitVec.shiftRight_add, Nat.add_comm]
    · intro i hi
      rw [BitVec.getLsbD_ushiftRight, Nat.add_comm]
      exact h (i + 1) (by omega)

/-- Table lookup: the low bits are divided on their own, the others are only moved down. -/
theorem iterate_divStep_split (n : ℕ) {mask : BitVec w}
    (hmask : ∀ i < w, mask.getLsbD i = decide (i < n)) (c : BitVec w) :
    (divStep poly)^[n] c = (divStep poly)^[n] (c &&& mask) ^^^ (c >>> n) := by
  have hsplit : c = (c &&& mask) ^^^ (c &&& ~~~mask) := by
    apply BitVec.eq_of_getLsbD_eq
    intro i hi
    simp only [BitVec.getLsbD_xor, BitVec.getLsbD_and, BitVec.getLsbD_not, hi, decide_true]
    cases c.getLsbD i <;> cases mask.getLsbD i <;> rfl
  have hhigh : (c &&& ~~~mask) >>> n = c >>> n := by
    apply BitVec.eq_of_getLsbD_eq
    intro i _
    rw [BitVec.getLsbD_ushiftRight, BitVec.getLsbD_ushiftRight, BitVec.getLsbD_and,
      BitVec.getLsbD_not]
    by_cases hi : n + i < w
    · rw [hmask (n + i) hi]
      simp [hi]
    · simp [BitVec.getLsbD_of_ge c (n + i) (by omega)]
  have hclear : ∀ i < n, (c &&& ~~~mask).getLsbD i = false := by
    intro i hi
    rw [BitVec.getLsbD_and, BitVec.getLsbD_not]
    by_cases hw : i < w
    · simp [hmask i hw, hi]
    · simp [hw]
  calc (divStep poly)^[n] c
      = (divStep poly)^[n] ((c &&& mask) ^^^ (c &&& ~~~mask)) := by rw [← hsplit]
    _ = (divStep poly)^[n] (c &&& mask) ^^^ (c >>> n) := by
      rw [iterate_divStep_xor, iterate_divStep_clear n hclear, hhigh]

theorem feed_xor (c b : BitVec w) :
    feed poly c (b.getLsbD 0) ^^^ (b >>> 1) = divStep poly (c ^^^ b) := by
  unfold feed divStep
  rw [BitVec.getLsbD_xor, BitVec.ushiftRight_xor_distrib]
  cases c.getLsbD 0 ^^ b.getLsbD 0
  · rfl
  · simp only [if_true]
    rw [BitVec.xor_assoc, BitVec.xor_comm poly, ← BitVec.xor_assoc]

theorem lowBits_succ (n : ℕ) (b : BitVec w) :
    lowBits (n + 1) b = b.getLsbD 0 :: lowBits n (b >>> 1) := by
  rw [lowBits, List.range_succ_eq_map, List.map_cons, List.map_map, lowBits]
  refine congrArg _ (List.map_congr_left fun i _ ↦ ?_)
  rw [BitVec.getLsbD_ushiftRight, Function.comp_apply, Nat.add_comm]

/-- Feeding bits one by one is to add them all to the remainder and then to divide. -/
theorem foldl_feed (n : ℕ) (c : BitVec w) {b : BitVec w} (hb : b >>> n = 0) :
    (lowBits n b).foldl (feed poly) c = (divStep poly)^[n] (c ^^^ b) := by
  induction n generalizing b c with
  | zero =>
    rw [BitVec.ushiftRight_zero] at hb
    simp [hb, lowBits]
  | succ n ih =>
    rw [lowBits_succ, List.foldl_cons, Function.iterate_succ_apply, ← feed_xor]
    exact ih _ (by rw [← BitVec.shiftRight_add, Nat.add_comm]; exact hb)

/-- The polynomial `l` of at most `w` bits, lowest bit first. -/
def word (l : List Bool) : BitVec w := (BitVec.ofBoolListLE l).setWidth w

theorem getLsbD_word {l : List Bool} (hl : l.length ≤ w) (i : ℕ) :
    (word l : BitVec w).getLsbD i = l.getD i false := by
  rw [word, BitVec.getLsbD_setWidth, BitVec.getLsbD_ofBoolListLE]
  by_cases hi : i < w
  · simp [hi]
  · rw [List.getD_eq_default _ _ (by omega), Bool.and_false]

theorem lowBits_word {l : List Bool} (hl : l.length ≤ w) :
    lowBits l.length (word l : BitVec w) = l := by
  apply List.ext_getElem
  · simp [lowBits]
  · intro i hi hi'
    simp [lowBits, getLsbD_word hl, hi']

theorem word_shifted {l : List Bool} (hl : l.length ≤ w) : (word l : BitVec w) >>> l.length = 0 := by
  apply BitVec.eq_of_getLsbD_eq
  intro i _
  rw [BitVec.getLsbD_ushiftRight, getLsbD_word hl, List.getD_eq_default _ _ (by omega)]
  exact BitVec.getLsbD_zero.symm

theorem foldl_feed_word {l : List Bool} (hl : l.length ≤ w) (c : BitVec w) :
    l.foldl (feed poly) c = (divStep poly)^[l.length] (c ^^^ word l) := by
  rw [← foldl_feed l.length c (word_shifted hl), lowBits_word hl]

section Injective

-- A polynomial whose highest bit is set: a division step loses nothing.
variable (hpoly : poly.msb = true)
include hpoly

theorem divStep_injective : Function.Injective (divStep poly) := by
  intro a b hab
  have hzero : divStep poly (a ^^^ b) = 0#w := by rw [divStep_xor, hab, BitVec.xor_self]
  apply BitVec.xor_eq_zero_iff.mp
  rw [divStep] at hzero
  split at hzero
  case isTrue hodd =>
    have heq : (a ^^^ b) >>> 1 = poly := BitVec.xor_eq_zero_iff.mp hzero
    rw [← heq, BitVec.msb_ushiftRight] at hpoly
    cases hpoly
  case isFalse heven =>
    apply BitVec.eq_of_getLsbD_eq
    intro i _
    cases i with
    | zero => simpa using heven
    | succ i =>
      have hbit := congrArg (fun c : BitVec w ↦ c.getLsbD i) hzero
      simp only [BitVec.getLsbD_ushiftRight, Nat.add_comm 1 i] at hbit
      rw [hbit]
      simp

theorem feed_injective (bit : Bool) : Function.Injective fun c ↦ feed poly c bit := by
  have hw : 1 ≤ w := by
    by_contra hw
    obtain rfl : w = 0 := by omega
    rw [BitVec.eq_nil poly] at hpoly
    cases hpoly
  intro c c' h
  have hword (c : BitVec w) : feed poly c bit = divStep poly (c ^^^ word [bit]) :=
    foldl_feed_word (l := [bit]) hw c
  simp only [hword] at h
  exact (BitVec.xor_left_inj _).mp (divStep_injective hpoly h)

/-- A difference of two remainders survives whatever is fed afterwards. -/
theorem foldl_feed_injective (l : List Bool) : Function.Injective fun c ↦ l.foldl (feed poly) c := by
  induction l with
  | nil => exact Function.injective_id
  | cons bit l ih => exact ih.comp (feed_injective hpoly bit)

/-- Two messages of one length that are no longer than the remainder leave different
remainders. -/
theorem eq_of_foldl_feed_eq {l l' : List Bool} (hlength : l.length = l'.length)
    (hl : l.length ≤ w) {c : BitVec w} (h : l.foldl (feed poly) c = l'.foldl (feed poly) c) :
    l = l' := by
  have hl' : l'.length ≤ w := hlength ▸ hl
  rw [foldl_feed_word hl, foldl_feed_word hl', ← hlength] at h
  have hword := (BitVec.xor_right_inj _).mp ((divStep_injective hpoly).iterate l.length h)
  rw [← lowBits_word hl, ← lowBits_word hl', ← hlength, hword]

end Injective

end Spadia.Foundation.ReflectedCrc
