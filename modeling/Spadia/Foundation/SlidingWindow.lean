import Mathlib.Algebra.BigOperators.Fin
import Mathlib.Data.Fintype.Card
import Mathlib.Order.Interval.Finset.Nat

namespace Spadia.Foundation.SlidingWindow

open Finset

inductive Cell
  | vacant
  | missing (s : ℕ)
  | present (s : ℕ)
deriving DecidableEq, Repr

def Cell.isMissing : Cell → Bool
  | missing _ => true
  | _ => false

@[simp] theorem isMissing_vacant : Cell.vacant.isMissing = false := rfl

@[simp] theorem isMissing_missing (s : ℕ) : (Cell.missing s).isMissing = true := rfl

@[simp] theorem isMissing_present (s : ℕ) : (Cell.present s).isMissing = false := rfl

def slot (W : ℕ) [NeZero W] (s : ℕ) : Fin W := Fin.ofNat W s

/-- The last `W` numbers below `next`, as far as they are not below `first`. -/
structure InWindow (W first next s : ℕ) : Prop where
  first_le : first ≤ s
  recent : next ≤ s + W
  lt_next : s < next

def lostSet (W first next : ℕ) (R : Finset ℕ) : Finset ℕ :=
  {s ∈ Ico (max first (next - W)) next | s ∉ R}

def lostCount {W : ℕ} (c : Fin W → Cell) : ℕ := #{j | (c j).isMissing}

/-- The ring `c` describes the window: every number of it is in its cell, marked by whether
it is in `R`, and no other number is marked missing. -/
structure Represents {W : ℕ} [NeZero W] (first next : ℕ) (R : Finset ℕ) (c : Fin W → Cell) : Prop where
  cell_eq : ∀ s, InWindow W first next s →
    c (slot W s) = if s ∈ R then .present s else .missing s
  of_missing : ∀ j s, c j = .missing s → InWindow W first next s ∧ slot W s = j

variable {W first next : ℕ} {R : Finset ℕ}

theorem mem_lostSet {s : ℕ} : s ∈ lostSet W first next R ↔ InWindow W first next s ∧ s ∉ R := by
  rw [lostSet, mem_filter, mem_Ico, max_le_iff]
  constructor
  · intro h
    obtain ⟨h, hR⟩ := h
    exact ⟨⟨h.1.1, by omega, h.2⟩, hR⟩
  · intro h
    obtain ⟨h, hR⟩ := h
    exact ⟨⟨⟨h.first_le, Nat.sub_le_of_le_add h.recent⟩, h.lt_next⟩, hR⟩

theorem lostCount_update (c : Fin W → Cell) (j : Fin W) (x : Cell) :
    lostCount (Function.update c j x) + (c j).isMissing.toNat =
      lostCount c + x.isMissing.toNat := by
  have hsum (c : Fin W → Cell) : lostCount c = ∑ i, (c i).isMissing.toNat := by
    rw [lostCount, card_filter]
    refine sum_congr rfl fun i _ ↦ ?_
    cases (c i).isMissing <;> rfl
  have hsplit (c : Fin W → Cell) : ∑ i, (c i).isMissing.toNat =
      (c j).isMissing.toNat + ∑ i ∈ univ.erase j, (c i).isMissing.toNat :=
    (add_sum_erase _ _ (mem_univ j)).symm
  have hrest : ∑ i ∈ univ.erase j, (Function.update c j x i).isMissing.toNat =
      ∑ i ∈ univ.erase j, (c i).isMissing.toNat :=
    sum_congr rfl fun i hi ↦ by rw [Function.update_of_ne (ne_of_mem_erase hi)]
  rw [hsum, hsum, hsplit, hsplit c, hrest, Function.update_self]
  omega

variable [NeZero W] {c : Fin W → Cell}

theorem slot_injective {s t : ℕ} (h : slot W s = slot W t) (hst : s < t + W) (hts : t < s + W) :
    s = t := by
  have hmod : s % W = t % W := congrArg Fin.val h
  have hs := Nat.div_add_mod s W
  have ht := Nat.div_add_mod t W
  rcases Nat.lt_trichotomy (s / W) (t / W) with hlt | heq | hgt
  · have := Nat.mul_le_mul_left W (Nat.succ_le_of_lt hlt)
    rw [Nat.mul_succ] at this
    omega
  · rw [heq] at hs
    omega
  · have := Nat.mul_le_mul_left W (Nat.succ_le_of_lt hgt)
    rw [Nat.mul_succ] at this
    omega

namespace Represents

theorem lostCount_eq (h : Represents first next R c) :
    lostCount c = #(lostSet W first next R) := by
  symm
  refine card_nbij (slot W) (fun s hs ↦ ?_) (fun s hs t ht hst ↦ ?_) (fun j hj ↦ ?_)
  · obtain ⟨hw, hR⟩ := mem_lostSet.mp hs
    have hmissing : (c (slot W s)).isMissing = true := by
      rw [h.cell_eq s hw, if_neg hR]
      rfl
    simpa using hmissing
  · obtain ⟨hs, -⟩ := mem_lostSet.mp hs
    obtain ⟨ht, -⟩ := mem_lostSet.mp ht
    have h₁ := hs.recent
    have h₂ := hs.lt_next
    have h₃ := ht.recent
    have h₄ := ht.lt_next
    exact slot_injective hst (by omega) (by omega)
  · have hj' : (c j).isMissing = true := by simpa using hj
    cases hc : c j with
    | vacant => simp [hc] at hj'
    | present s => simp [hc] at hj'
    | missing s =>
      obtain ⟨hw, rfl⟩ := h.of_missing j s hc
      refine ⟨s, mem_coe.mpr (mem_lostSet.mpr ⟨hw, fun hR ↦ ?_⟩), rfl⟩
      rw [h.cell_eq s hw, if_pos hR] at hc
      cases hc

theorem start (first : ℕ) :
    Represents first (first + 1) {first}
      (Function.update (fun _ ↦ .vacant) (slot W first) (.present first)) where
  cell_eq s hs := by
    have hs' : s = first := by
      have h₁ := hs.first_le
      have h₂ := hs.lt_next
      omega
    simp [hs']
  of_missing j s h := by
    by_cases hj : j = slot W first
    · simp [hj] at h
    · simp [Function.update_of_ne hj] at h

/-- The window moves on by one number. Its cell is the one of the number that leaves. -/
theorem advance (h : Represents first next R c) (hfirst : first ≤ next) {R' : Finset ℕ}
    (hR : ∀ s < next, s ∈ R' ↔ s ∈ R) :
    Represents first (next + 1) R' (Function.update c (slot W next)
      (if next ∈ R' then .present next else .missing next)) where
  cell_eq s hs := by
    by_cases hn : s = next
    · rw [hn, Function.update_self]
    · have hw : InWindow W first next s :=
        ⟨hs.first_le, by have := hs.recent; omega, by have := hs.lt_next; omega⟩
      have hne : slot W s ≠ slot W next := fun heq ↦
        hn (slot_injective heq (by have := hw.lt_next; omega) (by have := hs.recent; omega))
      rw [Function.update_of_ne hne, h.cell_eq s hw]
      simp only [hR s hw.lt_next]
  of_missing j s hc := by
    by_cases hj : j = slot W next
    · have hs : s = next := by
        rw [hj, Function.update_self] at hc
        split at hc
        · cases hc
        · exact (Cell.missing.inj hc).symm
      have hW : W ≠ 0 := NeZero.ne W
      exact ⟨⟨by omega, by omega, by omega⟩, by rw [hj, hs]⟩
    · rw [Function.update_of_ne hj] at hc
      obtain ⟨hw, hslot⟩ := h.of_missing j s hc
      have hne : s + W ≠ next := by
        intro heq
        apply hj
        rw [← hslot, ← heq, slot, slot]
        ext
        simp
      have h₁ := hw.recent
      exact ⟨⟨hw.first_le, by omega, by have := hw.lt_next; omega⟩, hslot⟩

/-- A late number is stored in its cell; a number below the first one touches a cell that no
number of the window uses. -/
theorem late (h : Represents first next R c) {e : ℕ} (hlt : e < next) (hle : next ≤ e + W) :
    Represents first next (insert e R) (Function.update c (slot W e) (.present e)) where
  cell_eq s hs := by
    by_cases he : s = e
    · simp [he]
    · have hne : slot W s ≠ slot W e := fun heq ↦
        he (slot_injective heq (by have := hs.lt_next; omega) (by have := hs.recent; omega))
      rw [Function.update_of_ne hne, h.cell_eq s hs]
      simp [he]
  of_missing j s hc := by
    by_cases hj : j = slot W e
    · rw [hj, Function.update_self] at hc
      cases hc
    · rw [Function.update_of_ne hj] at hc
      exact h.of_missing j s hc

end Represents

end Spadia.Foundation.SlidingWindow
