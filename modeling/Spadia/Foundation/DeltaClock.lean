import Mathlib.Algebra.Order.Group.Int
import Mathlib.Data.List.Chain
import Mathlib.Data.List.Forall2
import Mathlib.Data.List.ReduceOption
import Mathlib.Tactic.Linarith
import Mathlib.Tactic.Ring

namespace Spadia.Foundation.DeltaClock

variable (q : ℤ)

/-- The whole number of quanta by which a clock at `c` is moved towards the time `t`; the
rest of the distance is cut off in either direction. -/
def stepTo (c t : ℤ) : ℤ := (t - c).tdiv q

def moves (c : ℤ) : List (Option ℤ) → List (Option ℤ)
  | [] => []
  | none :: l => none :: moves c l
  | some t :: l => some (stepTo q c t) :: moves (c + stepTo q c t * q) l

/-- The times that a reader of the moves finds on its own clock. -/
def replay (c : ℤ) : List (Option ℤ) → List (Option ℤ)
  | [] => []
  | none :: l => none :: replay c l
  | some d :: l => some (c + d * q) :: replay (c + d * q) l

/-- An absent time stays absent and a time is off by less than one quantum. -/
inductive Close : Option ℤ → Option ℤ → Prop
  | absent : Close none none
  | present {t r : ℤ} : |r - t| < q → Close (some t) (some r)

variable {q}

@[simp] theorem length_moves (c : ℤ) (l : List (Option ℤ)) :
    (moves q c l).length = l.length := by
  induction l generalizing c with
  | nil => rfl
  | cons t l ih => cases t <;> simp [moves, ih]

theorem map_isNone_moves (c : ℤ) (l : List (Option ℤ)) :
    (moves q c l).map Option.isNone = l.map Option.isNone := by
  induction l generalizing c with
  | nil => rfl
  | cons t l ih => cases t <;> simp [moves, ih]

theorem stepTo_close (hq : 0 < q) (c t : ℤ) : |c + stepTo q c t * q - t| < q := by
  have h := Int.tdiv_mul_add_tmod (t - c) q
  have h₁ := Int.tmod_lt_of_pos (t - c) hq
  have h₂ := Int.lt_tmod_of_pos (t - c) hq
  rw [abs_lt]
  unfold stepTo
  constructor <;> linarith

theorem abs_stepTo_le (hq : 0 < q) {B c t : ℤ} (h : |t - c| < (B + 1) * q) :
    |stepTo q c t| ≤ B := by
  have he : |stepTo q c t| = |t - c| / q := by
    have hn : ((t - c).tdiv q).natAbs = (t - c).natAbs / q.natAbs := Int.natAbs_tdiv _ _
    rw [stepTo, Int.abs_eq_natAbs, hn, Int.natCast_ediv, Int.natCast_natAbs, Int.natCast_natAbs,
      abs_of_pos hq]
  rw [he]
  exact Int.lt_add_one_iff.mp (Int.ediv_lt_of_lt_mul hq h)

/-- The rounding error does not accumulate: every move is computed from the clock that the
reader has, not from the time before. -/
theorem replay_moves (hq : 0 < q) (c : ℤ) (l : List (Option ℤ)) :
    List.Forall₂ (Close q) l (replay q c (moves q c l)) := by
  induction l generalizing c with
  | nil => exact .nil
  | cons t l ih =>
    cases t with
    | none => exact .cons .absent (ih c)
    | some t => exact .cons (.present (stepTo_close hq c t)) (ih _)

theorem getElem?_replay_moves (hq : 0 < q) (c : ℤ) {l : List (Option ℤ)} {i : ℕ} {t : ℤ}
    (h : l[i]? = some (some t)) :
    ∃ x, (replay q c (moves q c l))[i]? = some (some x) ∧ |x - t| < q := by
  obtain ⟨hi, hget⟩ := List.getElem?_eq_some_iff.mp h
  have hall := replay_moves hq c l
  have hi' : i < (replay q c (moves q c l)).length := hall.length_eq ▸ hi
  have hclose := hall.get hi hi'
  rw [List.get_eq_getElem, List.get_eq_getElem, hget] at hclose
  rw [List.getElem?_eq_getElem hi']
  generalize (replay q c (moves q c l))[i] = r at hclose
  cases hclose with
  | present hlt => exact ⟨_, rfl, hlt⟩

theorem abs_moves_le (hq : 0 < q) {B c : ℤ} {l : List (Option ℤ)}
    (hfirst : ∀ t ∈ l.reduceOption.head?, |t - c| < (B + 1) * q)
    (hgap : l.reduceOption.IsChain fun a b ↦ |b - a| ≤ B * q) :
    ∀ d ∈ (moves q c l).reduceOption, |d| ≤ B := by
  induction l generalizing c with
  | nil => simp [moves]
  | cons t l ih =>
    cases t with
    | none => simpa [moves] using ih hfirst hgap
    | some t =>
      rw [List.reduceOption_cons_of_some] at hfirst hgap
      rw [moves, List.reduceOption_cons_of_some, List.forall_mem_cons]
      refine ⟨abs_stepTo_le hq (hfirst t rfl), ih (fun u hu ↦ ?_) hgap.of_cons⟩
      have hnext : |u - t| ≤ B * q := by
        rw [List.isChain_cons] at hgap
        exact hgap.1 u hu
      -- The clock is less than one quantum away from `t` when the next time comes.
      calc |u - (c + stepTo q c t * q)|
          ≤ |u - t| + |t - (c + stepTo q c t * q)| := abs_sub_le _ _ _
        _ < B * q + q := add_lt_add_of_le_of_lt hnext (abs_sub_comm t _ ▸ stepTo_close hq c t)
        _ = (B + 1) * q := by ring

end Spadia.Foundation.DeltaClock
