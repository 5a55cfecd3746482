import Mathlib.Data.List.Basic
import Mathlib.Data.Nat.Notation
import Mathlib.Tactic.Common

namespace Spadia.Foundation.ByteWord

variable {n : ℕ}

/-- A word of `n` bits from `B` bytes, of which the one at index `i` goes to place `place i`. -/
def join (place : ℕ → ℕ) (B : ℕ) (data : ℕ → UInt8) : BitVec n :=
  (List.range B).foldl (fun val i ↦ val ||| (data i).toBitVec.setWidth n <<< (8 * place i)) 0

def split (place : ℕ → ℕ) (B : ℕ) (val : BitVec n) : List UInt8 :=
  (List.range B).map fun i ↦ ⟨(val >>> (8 * place i)).setWidth 8⟩

@[simp] theorem length_split (place : ℕ → ℕ) (B : ℕ) (val : BitVec n) :
    (split place B val).length = B := by
  simp [split]

theorem getLsbD_foldl_or (l : List ℕ) (f : ℕ → BitVec n) (acc : BitVec n) (k : ℕ) :
    (l.foldl (fun val i ↦ val ||| f i) acc).getLsbD k =
      (acc.getLsbD k || l.any fun i ↦ (f i).getLsbD k) := by
  induction l generalizing acc with
  | nil => simp
  | cons i l ih => rw [List.foldl_cons, ih, BitVec.getLsbD_or, List.any_cons, Bool.or_assoc]

/-- An order of `B` bytes that undoes itself. -/
def Involutive (place : ℕ → ℕ) (B : ℕ) : Prop := ∀ i < B, place i < B ∧ place (place i) = i

variable {place : ℕ → ℕ} {B : ℕ}

/-- Each bit of the word comes from one byte. -/
theorem getLsbD_join (hplace : Involutive place B) (data : ℕ → UInt8) (k : ℕ) :
    (join place B data : BitVec n).getLsbD k =
      (decide (k < n) && decide (k < 8 * B) && (data (place (k / 8))).toBitVec.getLsbD (k % 8)) := by
  rw [join, getLsbD_foldl_or, Bool.eq_iff_iff]
  simp only [BitVec.ofNat_eq_ofNat, BitVec.getLsbD_zero, Bool.false_or, List.any_eq_true,
    List.mem_range, BitVec.getLsbD_shiftLeft, BitVec.getLsbD_setWidth, Bool.and_eq_true,
    Bool.not_eq_true', decide_eq_true_eq, decide_eq_false_iff_not]
  constructor
  · intro h
    obtain ⟨i, hi, ⟨hk, hge⟩, -, hbit⟩ := h
    have hlt : k - 8 * place i < 8 := by
      by_contra hout
      rw [BitVec.getLsbD_of_ge _ _ (by omega)] at hbit
      cases hbit
    have hquot : k / 8 = place i := by omega
    have hrem : k % 8 = k - 8 * place i := by omega
    obtain ⟨hB, hinv⟩ := hplace i hi
    rw [hquot, hinv, hrem]
    exact ⟨⟨hk, by omega⟩, hbit⟩
  · intro h
    obtain ⟨⟨hk, hB⟩, hbit⟩ := h
    obtain ⟨hlt, hinv⟩ := hplace (k / 8) (by omega)
    refine ⟨place (k / 8), hlt, ⟨hk, ?_⟩, ?_, ?_⟩
    · rw [hinv]
      omega
    · omega
    · have hrem : k - 8 * place (place (k / 8)) = k % 8 := by
        rw [hinv]
        omega
      rw [hrem]
      exact hbit

theorem getLsbD_split {val : BitVec n} {i : ℕ} (hi : i < B) (j : ℕ) :
    (((split place B val).getD i 0).toBitVec).getLsbD j =
      (decide (j < 8) && val.getLsbD (8 * place i + j)) := by
  simp [split, hi]

/-- Joining what was split keeps the low `B` bytes of a word. -/
theorem join_split (hplace : Involutive place B) (val : BitVec n) :
    join place B (fun i ↦ (split place B val).getD i 0) = (val.setWidth (8 * B)).setWidth n := by
  apply BitVec.eq_of_getLsbD_eq
  intro k hk
  rw [getLsbD_join hplace]
  simp only [BitVec.getLsbD_setWidth, hk, decide_true, Bool.true_and]
  by_cases hB : k < 8 * B
  · obtain ⟨hlt, hinv⟩ := hplace (k / 8) (by omega)
    have hbit : 8 * (k / 8) + k % 8 = k := by omega
    have hmod : k % 8 < 8 := by omega
    rw [getLsbD_split hlt, hinv, hbit]
    simp [hB, hmod]
  · simp [hB]

/-- A word that can hold `B` bytes gives them back. -/
theorem split_join (hplace : Involutive place B) (hB : 8 * B ≤ n) (data : ℕ → UInt8) :
    split place B (join place B data : BitVec n) = (List.range B).map data := by
  apply List.map_congr_left
  intro i hi
  obtain ⟨hlt, hinv⟩ := hplace i (List.mem_range.mp hi)
  apply UInt8.toBitVec_inj.mp
  apply BitVec.eq_of_getLsbD_eq
  intro j hj
  have hquot : (8 * place i + j) / 8 = place i := by omega
  have hrem : (8 * place i + j) % 8 = j := by omega
  have hn : 8 * place i + j < n := by omega
  have hB' : 8 * place i + j < 8 * B := by omega
  simp only [BitVec.getLsbD_setWidth, BitVec.getLsbD_ushiftRight, getLsbD_join hplace, hquot, hinv,
    hrem]
  simp [hj, hn, hB']

end Spadia.Foundation.ByteWord
