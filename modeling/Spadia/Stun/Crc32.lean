import Mathlib.Data.Nat.Notation

namespace Spadia.Stun.Crc32

/-- One round of the inner loop of the table constructor. -/
def tableStep (c : UInt32) : UInt32 :=
  if c &&& 1 ≠ 0 then (0xEDB88320 : UInt32) ^^^ (c >>> 1) else c >>> 1

def table (i : UInt32) : UInt32 := (List.range 8).foldl (fun c _ ↦ tableStep c) i

def crcStep (c : UInt32) (b : UInt8) : UInt32 := table ((c ^^^ b.toUInt32) &&& 0xFF) ^^^ (c >>> 8)

def calculateXORCRC (data : List UInt8) : UInt32 :=
  (data.foldl crcStep ((0 : UInt32) ^^^ 0xFFFFFFFF) ^^^ 0xFFFFFFFF) ^^^ 0x5354554e

/-- The object, with the array that its constructor fills. -/
structure CRC32 where
  table : Vector UInt32 256

def tableIndex (c : UInt32) (b : UInt8) : Fin 256 :=
  ⟨((c ^^^ b.toUInt32) &&& 0xFF).toNat, by
    rw [UInt32.toNat_and]
    exact Nat.lt_succ_of_le Nat.and_le_right⟩

namespace CRC32

/-- The constructor. The array holds `raw` before the outer loop. -/
def create (raw : Vector UInt32 256) : CRC32 where
  table := (List.finRange 256).foldl
    (fun t (i : Fin 256) ↦ t.set i (Crc32.table (UInt32.ofNat i))) raw

def step (crc : CRC32) (c : UInt32) (b : UInt8) : UInt32 :=
  crc.table[tableIndex c b] ^^^ (c >>> 8)

/-- `CRC32::CalculateXORCRC` with the table of the object. -/
def calculateXORCRC (crc : CRC32) (data : List UInt8) : UInt32 :=
  (data.foldl crc.step ((0 : UInt32) ^^^ 0xFFFFFFFF) ^^^ 0xFFFFFFFF) ^^^ 0x5354554e

/-- An entry that some round of the loop has filled, or still fills, holds its value at the end. -/
theorem getElem_foldl_set (f : Fin 256 → UInt32) (l : List (Fin 256)) {t : Vector UInt32 256}
    {j : Fin 256} (h : j ∈ l ∨ t[j] = f j) :
    (l.foldl (fun t i ↦ t.set i (f i)) t)[j] = f j := by
  induction l generalizing t with
  | nil => exact h.resolve_left List.not_mem_nil
  | cons i l ih =>
    rw [List.foldl_cons]
    apply ih
    by_cases hij : i = j
    · subst hij
      exact .inr (by simp)
    · have hne : i.val ≠ j.val := fun h ↦ hij (Fin.ext h)
      rcases h with h | h
      · exact .inl ((List.mem_cons.mp h).resolve_left (Ne.symm hij))
      · exact .inr (by simpa [hne] using h)

theorem getElem_create (raw : Vector UInt32 256) (i : Fin 256) :
    (create raw).table[i] = Crc32.table (UInt32.ofNat i) := by
  rw [create, getElem_foldl_set _ _ (.inl (List.mem_finRange i))]

theorem create_step (raw : Vector UInt32 256) (c : UInt32) (b : UInt8) :
    (create raw).step c b = crcStep c b := by
  rw [step, getElem_create, tableIndex, crcStep, UInt32.ofNat_toNat]

theorem create_calculateXORCRC (raw : Vector UInt32 256) (data : List UInt8) :
    (create raw).calculateXORCRC data = Crc32.calculateXORCRC data := by
  have hstep : (create raw).step = crcStep := funext fun c ↦ funext fun b ↦ create_step raw c b
  rw [calculateXORCRC, Crc32.calculateXORCRC, hstep]

end CRC32

end Spadia.Stun.Crc32
