import Mathlib.Data.Nat.Notation

namespace Spadia.Foundation.TracedRead

/-- Memory as it is seen through a pointer: a byte at every index, also past the
end of the object that the pointer was handed out for. -/
abbrev Memory := ℕ → UInt8

def ofList (l : List UInt8) : Memory := fun i ↦ l.getD i 0

def Stores (m : Memory) (i : ℕ) (l : List UInt8) : Prop := (List.range' i l.length).map m = l

instance (m : Memory) (i : ℕ) (l : List UInt8) : Decidable (Stores m i l) :=
  inferInstanceAs (Decidable (_ = _))

@[simp] theorem stores_nil (m : Memory) (i : ℕ) : Stores m i [] := by simp [Stores]

@[simp] theorem stores_cons (m : Memory) (i : ℕ) (a : UInt8) (l : List UInt8) :
    Stores m i (a :: l) ↔ m i = a ∧ Stores m (i + 1) l := by
  simp [Stores, List.range'_succ]

theorem stores_append (m : Memory) (i : ℕ) (k l : List UInt8) :
    Stores m i (k ++ l) ↔ Stores m i k ∧ Stores m (i + k.length) l := by
  induction k generalizing i with
  | nil => simp
  | cons a k ih =>
    have e : i + 1 + k.length = i + (k.length + 1) := by omega
    simp [ih, e, and_assoc]

theorem Stores.getElem {m : Memory} {i : ℕ} {l : List UInt8} (h : Stores m i l) {j : ℕ}
    (hj : j < l.length) : m (i + j) = l[j] := by
  have hget := List.getElem_of_eq h (i := j) (by simpa using hj)
  simpa using hget

/-- A computation that reads memory byte by byte and lists every index it reads. -/
def Read (α : Type) := Memory → α × List ℕ

namespace Read

variable {α β : Type}

def value (x : Read α) (m : Memory) : α := (x m).1

def trace (x : Read α) (m : Memory) : List ℕ := (x m).2

def byte (i : ℕ) : Read UInt8 := fun m ↦ (m i, [i])

def block (i n : ℕ) : Read (List UInt8) :=
  fun m ↦ ((List.range' i n).map m, List.range' i n)

def array (i n : ℕ) : Read (Vector UInt8 n) :=
  fun m ↦ (Vector.ofFn fun j ↦ m (i + j), List.range' i n)

instance : Monad Read where
  pure a := fun _ ↦ (a, [])
  bind x f := fun m ↦ ((f (x m).1 m).1, (x m).2 ++ (f (x m).1 m).2)

@[simp] theorem value_pure (a : α) (m : Memory) : (pure a : Read α).value m = a := (rfl)

@[simp] theorem trace_pure (a : α) (m : Memory) : (pure a : Read α).trace m = [] := (rfl)

@[simp] theorem value_bind (x : Read α) (f : α → Read β) (m : Memory) :
    (x >>= f).value m = (f (x.value m)).value m := (rfl)

@[simp] theorem trace_bind (x : Read α) (f : α → Read β) (m : Memory) :
    (x >>= f).trace m = x.trace m ++ (f (x.value m)).trace m := (rfl)

@[simp] theorem value_byte (i : ℕ) (m : Memory) : (byte i).value m = m i := (rfl)

@[simp] theorem trace_byte (i : ℕ) (m : Memory) : (byte i).trace m = [i] := (rfl)

@[simp] theorem trace_block (i n : ℕ) (m : Memory) :
    (block i n).trace m = List.range' i n := (rfl)

@[simp] theorem value_ite (p : Prop) {_ : Decidable p} (x y : Read α) (m : Memory) :
    (if p then x else y).value m = if p then x.value m else y.value m := by
  split <;> rfl

def Inside (n : ℕ) (x : Read α) (m : Memory) : Prop := ∀ i ∈ x.trace m, i < n

variable {n : ℕ} {m : Memory}

@[simp] theorem inside_pure (a : α) : Inside n (pure a) m := by simp [Inside]

@[simp] theorem inside_byte (i : ℕ) : Inside n (byte i) m ↔ i < n := by simp [Inside]

@[simp] theorem inside_block (i k : ℕ) : Inside n (block i k) m ↔ k = 0 ∨ i + k ≤ n := by
  simp only [Inside, trace_block, List.mem_range'_1]
  constructor
  · intro h
    by_cases hk : k = 0
    · exact .inl hk
    · have h' := h (i + k - 1) (by omega)
      exact .inr (by omega)
  · intro h j hj
    omega

@[simp] theorem inside_array (i k : ℕ) : Inside n (array i k) m ↔ k = 0 ∨ i + k ≤ n :=
  inside_block (m := m) i k

@[simp] theorem inside_bind (x : Read α) (f : α → Read β) :
    Inside n (x >>= f) m ↔ Inside n x m ∧ Inside n (f (x.value m)) m := by
  simp only [Inside, trace_bind, List.mem_append]
  constructor
  · intro h
    exact ⟨fun i hi ↦ h i (.inl hi), fun i hi ↦ h i (.inr hi)⟩
  · rintro ⟨hx, hf⟩ i (hi | hi)
    · exact hx i hi
    · exact hf i hi

theorem inside_ite (p : Prop) {_ : Decidable p} (x y : Read α) :
    Inside n (if p then x else y) m ↔ (p → Inside n x m) ∧ (¬ p → Inside n y m) := by
  by_cases h : p <;> simp [h]

end Read

end Spadia.Foundation.TracedRead
