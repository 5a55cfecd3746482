import Mathlib.Data.List.Basic
import Mathlib.Data.List.OfFn

namespace Spadia.Foundation.ByteBuffer

/-- An output buffer. A cell is `none` until some write reaches it. -/
abbrev Buffer := ℕ → Option UInt8

def malloc : Buffer := fun _ ↦ none

def write (b : Buffer) (off : ℕ) (l : List UInt8) : Buffer :=
  fun i ↦ if off ≤ i ∧ i < off + l.length then l[i - off]? else b i

/-- The `n` bytes from offset `off` on; a cell that was never written reads as zero. -/
def bytes (b : Buffer) (off n : ℕ) : List UInt8 :=
  (List.range n).map fun i ↦ (b (off + i)).getD 0

@[simp] theorem length_bytes (b : Buffer) (off n : ℕ) : (bytes b off n).length = n := by
  simp [bytes]

@[simp] theorem write_nil (b : Buffer) (off : ℕ) : write b off [] = b := by
  funext i
  have h : ¬ (off ≤ i ∧ i < off) := by omega
  simp [write, h]

theorem write_inside (b : Buffer) {off i : ℕ} {l : List UInt8} (h : i < l.length) :
    write b off l (off + i) = some l[i] := by
  simp [write, h]

theorem write_outside (b : Buffer) {off i : ℕ} {l : List UInt8}
    (h : i < off ∨ off + l.length ≤ i) : write b off l i = b i := by
  have h' : ¬ (off ≤ i ∧ i < off + l.length) := by omega
  simp [write, h']

theorem write_write_append (b : Buffer) (off : ℕ) (k l : List UInt8) :
    write (write b off k) (off + k.length) l = write b off (k ++ l) := by
  funext i
  by_cases hk : i < off + k.length
  · rw [write_outside _ (.inl hk)]
    by_cases ho : off ≤ i
    · obtain ⟨j, rfl⟩ := Nat.exists_eq_add_of_le ho
      have hj : j < k.length := by omega
      rw [write_inside b hj, write_inside b (by simp; omega), List.getElem_append_left hj]
    · rw [write_outside b (.inl (by omega)), write_outside b (.inl (by omega))]
  · by_cases hl : i < off + k.length + l.length
    · obtain ⟨j, rfl⟩ := Nat.exists_eq_add_of_le (Nat.le_of_not_lt hk)
      have hj : j < l.length := by omega
      rw [write_inside _ hj, Nat.add_assoc, write_inside b (by simp; omega),
        List.getElem_append_right (by omega)]
      simp
    · rw [write_outside _ (.inr (by omega)), write_outside b (.inr (by omega)),
        write_outside b (.inr (by simp; omega))]

theorem write_end (b : Buffer) {n : ℕ} {k : List UInt8} (hn : k.length = n) (l : List UInt8) :
    write (write b 0 k) n l = write b 0 (k ++ l) := by
  subst hn
  simpa using write_write_append b 0 k l

theorem write_write_covered (b : Buffer) {off off' : ℕ} {k l : List UInt8}
    (h : off ≤ off') (h' : off' + k.length ≤ off + l.length) :
    write (write b off' k) off l = write b off l := by
  funext i
  by_cases hi : off ≤ i ∧ i < off + l.length
  · simp only [write, hi, and_self, if_true]
  · rw [write_outside _ (by omega), write_outside b (by omega), write_outside b (by omega)]

/-- A write that covers the end of the one before it replaces that end. -/
theorem write_write_overlap (b : Buffer) (off : ℕ) (k : List UInt8) {u l : List UInt8}
    (h : u.length ≤ l.length) :
    write (write b off (k ++ u)) (off + k.length) l = write b off (k ++ l) := by
  rw [← write_write_append, write_write_covered _ (le_refl _) (Nat.add_le_add_left h _),
    write_write_append]

theorem write_comm (b : Buffer) (off off' : ℕ) {k l : List UInt8}
    (h : off + k.length ≤ off' ∨ off' + l.length ≤ off) :
    write (write b off k) off' l = write (write b off' l) off k := by
  funext i
  by_cases hk : off ≤ i ∧ i < off + k.length
  · rw [write_outside _ (by omega)]
    simp only [write, hk, and_self, if_true]
  · have hout : i < off ∨ off + k.length ≤ i := by omega
    rw [write_outside (write b off' l) hout]
    simp only [write, hk, if_false]

/-- A write into the middle of an earlier one replaces that part of it. -/
theorem write_patch (b : Buffer) {off n : ℕ} {k u v : List UInt8} (l : List UInt8)
    (hn : off + k.length = n) (h : u.length = v.length) :
    write (write b off (k ++ u ++ l)) n v = write b off (k ++ v ++ l) := by
  subst hn
  rw [← write_write_append, write_comm _ _ _ (.inr (by rw [List.length_append]; omega)),
    write_write_overlap _ _ _ (Nat.le_of_eq h), List.length_append, h, ← List.length_append,
    write_write_append]

theorem bytes_write_append (b : Buffer) (off : ℕ) {n : ℕ} {k : List UInt8} (l : List UInt8)
    (hn : k.length = n) : bytes (write b off (k ++ l)) off n = k := by
  subst hn
  apply List.ext_getElem
  · simp
  · intro i hi hi'
    have hi'' : i < (k ++ l).length := by
      rw [List.length_append]
      omega
    simp only [bytes, List.getElem_map, List.getElem_range, write_inside b hi'', Option.getD_some,
      List.getElem_append_left hi']

theorem bytes_write (b : Buffer) (off : ℕ) (l : List UInt8) :
    bytes (write b off l) off l.length = l := by
  simpa using bytes_write_append b off [] (rfl : l.length = _)

end Spadia.Foundation.ByteBuffer
