import Mathlib.Data.List.Nodup
import Mathlib.Data.Nat.Notation

namespace Spadia.Server.Ports

/-- The member `port_` of a `Server`, which starts at the base port. -/
structure PortCounter where
  port : UInt32

namespace PortCounter

def getPort (s : PortCounter) : UInt32 × PortCounter := (s.port, { s with port := s.port + 1 })

/-- The port of a new `PeerConnection`. A port is not given back, and nothing fails. -/
def create (s : PortCounter) : UInt16 × PortCounter := (s.getPort.1.toUInt16, s.getPort.2)

/-- The ports of the next `n` connections. -/
def ports (s : PortCounter) : ℕ → List UInt16
  | 0 => []
  | n + 1 => s.create.1 :: s.create.2.ports n

theorem ports_eq (s : PortCounter) (n : ℕ) :
    s.ports n = (List.range n).map fun i ↦ UInt16.ofNat (s.port.toNat + i) := by
  induction n generalizing s with
  | zero => rfl
  | succ n ih =>
    have hnext : ∀ i, UInt16.ofNat ((s.port + 1).toNat + i) =
        UInt16.ofNat (s.port.toNat + (i + 1)) := by
      intro i
      apply UInt16.toNat_inj.mp
      simp only [UInt16.toNat_ofNat', UInt32.toNat_add, UInt32.reduceToNat]
      omega
    rw [ports, List.range_succ_eq_map, List.map_cons, List.map_map, ih]
    refine congrArg₂ List.cons ?_ (List.map_congr_left fun i _ ↦ hnext i)
    rfl

theorem mem_ports_iff (s : PortCounter) (n : ℕ) (p : UInt16) :
    p ∈ s.ports n ↔ ∃ i < n, UInt16.ofNat (s.port.toNat + i) = p := by
  rw [ports_eq]
  simp

/-- The counter passes `65536` when it is not stopped, and its low bits are then zero. -/
theorem zero_mem_ports (s : PortCounter) {n : ℕ} (hbase : s.port.toNat < 65536)
    (h : s.port.toNat = 0 ∧ 0 < n ∨ 65536 < s.port.toNat + n) : 0 ∈ s.ports n := by
  rw [mem_ports_iff]
  rcases h with ⟨hzero, hn⟩ | hpast
  · exact ⟨0, hn, by rw [hzero]; rfl⟩
  · refine ⟨65536 - s.port.toNat, by omega, ?_⟩
    rw [Nat.add_sub_cancel' (Nat.le_of_lt hbase)]
    rfl

theorem toNat_port {base i n : ℕ} (hi : i < n) (h : base + n ≤ 65536) :
    (UInt16.ofNat (base + i)).toNat = base + i :=
  UInt16.toNat_ofNat_of_lt' (by change base + i < 65536; omega)

end PortCounter

open PortCounter

/-- The ports of a run are valid and unique exactly as long as the counter stays in sixteen
bits. -/
theorem ports_unique_iff (base : UInt32) (hbase : base.toNat < 65536) (n : ℕ) :
    (∀ p ∈ (PortCounter.mk base).ports n, p ≠ 0) ∧ ((PortCounter.mk base).ports n).Nodup ↔
      n = 0 ∨ 0 < base.toNat ∧ base.toNat + n ≤ 65536 := by
  constructor
  · intro h
    by_contra hcond
    refine h.1 0 (zero_mem_ports ⟨base⟩ hbase ?_) rfl
    change base.toNat = 0 ∧ 0 < n ∨ 65536 < base.toNat + n
    omega
  · intro h
    rcases h with rfl | ⟨hpos, hle⟩
    · exact ⟨by simp [ports], List.nodup_nil⟩
    · constructor
      · intro p hp hzero
        obtain ⟨i, hi, rfl⟩ := (mem_ports_iff _ _ _).mp hp
        have hnat := congrArg UInt16.toNat hzero
        rw [toNat_port hi hle] at hnat
        change base.toNat + i = 0 at hnat
        omega
      · rw [ports_eq]
        apply List.Nodup.map_on _ List.nodup_range
        intro i hi j hj heq
        have hnat := congrArg UInt16.toNat heq
        rw [toNat_port (List.mem_range.mp hi) hle, toNat_port (List.mem_range.mp hj) hle] at hnat
        exact Nat.add_left_cancel hnat

theorem ports_from_8080 : (∀ p ∈ (PortCounter.mk 8080).ports 57456, p ≠ 0) ∧
    ((PortCounter.mk 8080).ports 57456).Nodup :=
  (ports_unique_iff 8080 (by decide) 57456).mpr (.inr (by decide))

/-- The connection number 57457 of the server on port 8080 gets port zero. -/
theorem ports_from_8080_zero : 0 ∈ (PortCounter.mk 8080).ports 57457 ∧
    ¬ ((∀ p ∈ (PortCounter.mk 8080).ports 57457, p ≠ 0) ∧
      ((PortCounter.mk 8080).ports 57457).Nodup) := by
  have hzero := zero_mem_ports ⟨8080⟩ (by decide) (.inr (by decide) : _ ∨ 65536 < 8080 + 57457)
  refine ⟨hzero, ?_⟩
  intro h
  exact h.1 0 hzero rfl

end Spadia.Server.Ports
