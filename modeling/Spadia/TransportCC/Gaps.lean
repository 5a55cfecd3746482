import Mathlib.Data.Finset.Max
import Mathlib.Order.Interval.Finset.Nat
import Spadia.TransportCC.Serialized

namespace Spadia.TransportCC.Gaps

open Foundation DeltaClock ByteBuffer Wire.ByteOrder Feedback PacketStatus DraftLayout Encoding
open Serialized

/-- The feedback after some calls of `InsertPacket`, with the times that the layout can carry. -/
structure Inserted (fb : TransportCCFeedBack) : Prop where
  nonempty : fb.packets.isEmpty = false
  number_lt : ∀ s ∈ fb.packets, s.toNat < 65536
  time_ne_zero : ∀ (s : UInt32) (t : UInt64), fb.packets[s]? = some t → t ≠ 0
  time_lt : ∀ (s : UInt32) (t : UInt64), fb.packets[s]? = some t → t.toNat < 2 ^ 23 * 64000
  gap_le : (arrivals fb).IsChain fun a b ↦ |b - a| ≤ 8000000

/-- The report gives the status to the number `s`. -/
def Marks (r : Report) (s : UInt32) (status : PacketStatus) : Prop :=
  ∃ i, r.statuses[i]? = some status ∧ s.toNat = r.base + i

structure Names (r : Report) (fb : TransportCCFeedBack) : Prop where
  received_iff : ∀ s, s ∈ fb.packets ↔ Marks r s smallDelta ∨ Marks r s largeOrNegativeDelta
  missing : ∀ first ∈ fb.packets, ∀ last ∈ fb.packets, ∀ s, first ≤ s → s ≤ last →
    s ∉ fb.packets → Marks r s notReceived

def Consecutive (fb : TransportCCFeedBack) : Prop :=
  ∀ first ∈ fb.packets, ∀ last ∈ fb.packets, ∀ s, first ≤ s → s ≤ last → s ∈ fb.packets

theorem length_readStatuses {need : ℕ} {input : List UInt8}
    {out : List PacketStatus × List UInt8} (h : readStatuses need input = some out) :
    out.1.length = need := by
  induction need, input using readStatuses.induct generalizing out with
  | case1 input =>
    rw [readStatuses] at h
    obtain rfl := Option.some.inj h
    rfl
  | case2 need b₀ b₁ input =>
    rename_i l ih
    rw [readStatuses] at h
    obtain ⟨rest, hrest, rfl⟩ := Option.map_eq_some_iff.mp h
    have hle := List.length_take_le (need + 1) (symbols (256 * b₀.toNat + b₁.toNat))
    rw [List.length_append, ih hrest]
    exact Nat.add_sub_cancel' hle
  | case3 input need hinput =>
    rw [readStatuses] at h
    · cases h
    · exact hinput

variable {fb : TransportCCFeedBack} {r : Report}

theorem mem_packets_iff {s : UInt32} :
    s ∈ fb.packets ↔ ∃ t, (s, t) ∈ fb.packets.toList := by
  simp only [fb.packets.mem_toList_iff_getElem?_eq_some, fb.packets.mem_iff_isSome_getElem?,
    Option.isSome_iff_exists]

theorem Inserted.exists_arrival (h : Inserted fb) :
    ∃ t : ℕ, (arrivals fb).head? = some (t : ℤ) := by
  obtain ⟨e, he⟩ : ∃ e, e ∈ fb.packets.toList := by
    apply List.exists_mem_of_ne_nil
    rw [← List.isEmpty_eq_false_iff, fb.packets.isEmpty_toList]
    exact h.nonempty
  have h0 := h.time_ne_zero e.1 e.2 (fb.packets.mem_toList_iff_getElem?_eq_some.mp he)
  obtain ⟨first, -, -, hhead⟩ := exists_head_arrivals he h0
  exact ⟨_, hhead⟩

theorem Inserted.exists_base (h : Inserted fb) : ∃ first ∈ fb.packets,
    (∀ s ∈ fb.packets, first ≤ s) ∧ (baseNumber fb).toNat = first.toNat := by
  have hordered := fb.packets.ordered_keys_toList
  cases hlist : fb.packets.toList with
  | nil =>
    have hne := h.nonempty
    rw [← fb.packets.isEmpty_toList, hlist] at hne
    cases hne
  | cons e rest =>
    rw [hlist, List.pairwise_cons] at hordered
    have hmem : e.1 ∈ fb.packets := mem_packets_iff.mpr ⟨e.2, by rw [hlist]; exact List.mem_cons_self ..⟩
    refine ⟨e.1, hmem, ?_, ?_⟩
    · intro s hs
      obtain ⟨t, ht⟩ := mem_packets_iff.mp hs
      rw [hlist] at ht
      rcases List.mem_cons.mp ht with heq | hrest
      · rw [← heq]
        exact UInt32.le_refl s
      · exact UInt32.le_of_lt (Std.compare_eq_lt.mp (hordered.1 _ hrest))
    · have hlt := h.number_lt e.1 hmem
      rw [baseNumber, hlist]
      simp only [List.head?_cons, Option.elim_some, UInt32.toNat_toUInt16]
      omega

/-- A decoded message has the base number of the map, and as many statuses as its 16-bit count
says. -/
theorem decode_serialize_shape (h : Inserted fb) (b : Buffer) (data : ℕ)
    (hr : decode (bytes (fb.serialize b data).1 data (fb.serialize b data).2) = some r) :
    r.base = (baseNumber fb).toNat ∧ r.statuses.length = fb.packets.size % 65536 := by
  obtain ⟨t, ht⟩ := h.exists_arrival
  obtain ⟨pad, -, hser⟩ := serialize_headed ht b data
  have hcount : UInt16.ofNat fb.packets.size = UInt16.ofNat (fb.packets.size % 65536) := by
    apply UInt16.toNat_inj.mp
    simp
  have href : (t / 64000) &&& 0x7FFFFF < 2 ^ 24 :=
    Nat.lt_of_le_of_lt Nat.and_le_right (by decide)
  rw [hser, bytes_write, hcount, ← UInt16.ofNat_toNat (x := baseNumber fb),
    decode_header (baseNumber fb).toNat_lt (Nat.mod_lt _ (by decide)) href] at hr
  obtain ⟨l, hl, hmoves⟩ := Option.bind_eq_some_iff.mp hr
  obtain ⟨moves, -, rfl⟩ := Option.map_eq_some_iff.mp hmoves
  exact ⟨rfl, length_readStatuses hl⟩

def numbers (fb : TransportCCFeedBack) : Finset ℕ := (fb.packets.keys.map UInt32.toNat).toFinset

theorem mem_numbers {x : ℕ} : x ∈ numbers fb ↔ ∃ s ∈ fb.packets, s.toNat = x := by
  simp only [numbers, List.mem_toFinset, List.mem_map, fb.packets.mem_keys]

theorem card_numbers (fb : TransportCCFeedBack) : (numbers fb).card = fb.packets.size := by
  have hnodup : (fb.packets.keys.map UInt32.toNat).Nodup := by
    apply List.Nodup.map (fun a b h ↦ UInt32.toNat_inj.mp h)
    apply fb.packets.ordered_keys.imp
    intro a b hlt heq
    rw [heq, Std.compare_self] at hlt
    cases hlt
  rw [numbers, List.toFinset_card_of_nodup hnodup, List.length_map, fb.packets.length_keys]

theorem Inserted.exists_last (h : Inserted fb) :
    ∃ last ∈ fb.packets, ∀ s ∈ fb.packets, s ≤ last := by
  obtain ⟨first, hfirst, -⟩ := h.exists_base
  obtain ⟨x, hx, hmax⟩ := (numbers fb).exists_max_image id ⟨_, mem_numbers.mpr ⟨first, hfirst, rfl⟩⟩
  obtain ⟨last, hlast, rfl⟩ := mem_numbers.mp hx
  refine ⟨last, hlast, ?_⟩
  intro s hs
  exact UInt32.le_iff_toNat_le.mpr (hmax _ (mem_numbers.mpr ⟨s, hs, rfl⟩))

section Range

variable {first last : UInt32} (hfirst : first ∈ fb.packets) (hlast : last ∈ fb.packets)
variable (hmin : ∀ s ∈ fb.packets, first ≤ s) (hmax : ∀ s ∈ fb.packets, s ≤ last)
include hmin hmax

theorem numbers_subset : numbers fb ⊆ Finset.Icc first.toNat last.toNat := by
  intro x hx
  obtain ⟨s, hs, rfl⟩ := mem_numbers.mp hx
  rw [Finset.mem_Icc]
  exact ⟨UInt32.le_iff_toNat_le.mp (hmin s hs), UInt32.le_iff_toNat_le.mp (hmax s hs)⟩

include hfirst hlast

theorem numbers_eq_Icc_iff : numbers fb = Finset.Icc first.toNat last.toNat ↔ Consecutive fb := by
  constructor
  · intro heq a ha b hb s has hsb
    have hs : s.toNat ∈ numbers fb := by
      rw [heq, Finset.mem_Icc, ← UInt32.le_iff_toNat_le, ← UInt32.le_iff_toNat_le]
      exact ⟨UInt32.le_trans (hmin a ha) has, UInt32.le_trans hsb (hmax b hb)⟩
    obtain ⟨s', hs', heq'⟩ := mem_numbers.mp hs
    rwa [← UInt32.toNat_inj.mp heq']
  · intro hall
    apply Finset.Subset.antisymm (numbers_subset hmin hmax)
    intro x hx
    obtain ⟨hle, hge⟩ := Finset.mem_Icc.mp hx
    have hx' : (UInt32.ofNat x).toNat = x :=
      UInt32.toNat_ofNat_of_lt' (Nat.lt_of_le_of_lt hge last.toNat_lt)
    refine mem_numbers.mpr ⟨UInt32.ofNat x, hall first hfirst last hlast _ ?_ ?_, hx'⟩
    · rwa [UInt32.le_iff_toNat_le, hx']
    · rwa [UInt32.le_iff_toNat_le, hx']

theorem consecutive_iff_card : Consecutive fb ↔ last.toNat + 1 ≤ first.toNat + fb.packets.size := by
  rw [← numbers_eq_Icc_iff hfirst hlast hmin hmax, ← card_numbers]
  constructor
  · intro heq
    rw [heq, Nat.card_Icc]
    omega
  · intro hcard
    apply Finset.eq_of_subset_of_card_le (numbers_subset hmin hmax)
    rw [Nat.card_Icc]
    omega

end Range

theorem Inserted.representable (h : Inserted fb) (hall : Consecutive fb)
    (hsize : fb.packets.size ≤ 65535) : ∃ k, Representable fb k fb.packets.size := by
  obtain ⟨first, hfirst, hmin, -⟩ := h.exists_base
  obtain ⟨last, hlast, hmax⟩ := h.exists_last
  have hnumbers := (numbers_eq_Icc_iff hfirst hlast hmin hmax).mpr hall
  have hle := UInt32.le_iff_toNat_le.mp (hmin last hlast)
  have hlt := h.number_lt last hlast
  have hcard := card_numbers fb
  rw [hnumbers, Nat.card_Icc] at hcard
  refine ⟨first.toNat, ?_, by omega, hsize, by omega, ?_, ?_, h.gap_le⟩
  · intro s
    have hs : s ∈ fb.packets ↔ s.toNat ∈ numbers fb := by
      rw [mem_numbers]
      constructor
      · exact fun hs ↦ ⟨s, hs, rfl⟩
      · intro hs
        obtain ⟨s', hs', heq⟩ := hs
        rwa [← UInt32.toNat_inj.mp heq]
    rw [hs, hnumbers, Finset.mem_Icc]
    omega
  · obtain ⟨t, ht⟩ := Option.isSome_iff_exists.mp (fb.packets.mem_iff_isSome_getElem?.mp hfirst)
    exact ⟨first, t, ht, h.time_ne_zero first t ht⟩
  · intro s t ht _
    exact h.time_lt s t ht

theorem Marks.bounds {s : UInt32} {status : PacketStatus} (h : Marks r s status) :
    r.base ≤ s.toNat ∧ s.toNat < r.base + r.statuses.length := by
  obtain ⟨i, hi, hs⟩ := h
  have hlt := (List.getElem?_eq_some_iff.mp hi).1
  omega

theorem marks_received {d : ℤ} {i : ℕ} {s : UInt32} (hs : s.toNat = r.base + i)
    (hstatus : r.statuses[i]? = some (label (some d))) :
    Marks r s smallDelta ∨ Marks r s largeOrNegativeDelta := by
  rw [label, statusOf] at hstatus
  split at hstatus
  case isTrue => exact .inr ⟨i, hstatus, hs⟩
  case isFalse => exact .inl ⟨i, hstatus, hs⟩

theorem names_of_representable (h : Inserted fb) {k n : ℕ} (hrep : Representable fb k n)
    (b : Buffer) (data : ℕ) :
    ∃ r, decode (bytes (fb.serialize b data).1 data (fb.serialize b data).2) = some r ∧
      Names r fb := by
  obtain ⟨t, pad, ht, hlt, hser⟩ := serialize_eq hrep b data
  refine ⟨_, by rw [hser, bytes_write]; exact decode_message hrep ht hlt pad, ?_, ?_⟩
  · intro s
    constructor
    · intro hs
      obtain ⟨hle, hltn⟩ := (hrep.mem_iff s).mp hs
      obtain ⟨i, hi⟩ := Nat.exists_eq_add_of_le hle
      obtain ⟨u, hu⟩ := Option.isSome_iff_exists.mp (fb.packets.mem_iff_isSome_getElem?.mp hs)
      have hu' : fb.packets[UInt32.ofNat (k + i)]? = some u := by
        rw [← hi, UInt32.ofNat_toNat, hu]
      have hnone := getElem?_clockMoves_isNone hrep t (by omega) hu'
      obtain ⟨m, hm, hm'⟩ := Option.map_eq_some_iff.mp hnone
      cases m with
      | none => simp [h.time_ne_zero s u hu] at hm'
      | some d => exact marks_received hi (by rw [List.getElem?_map, hm]; rfl)
    · intro hmarks
      have hbounds := hmarks.elim Marks.bounds Marks.bounds
      rw [List.length_map, hrep.length_clockMoves] at hbounds
      exact (hrep.mem_iff s).mpr hbounds
  · intro first hfirst last hlast s hle hge hs
    rw [hrep.mem_iff] at hfirst hlast hs
    rw [UInt32.le_iff_toNat_le] at hle hge
    omega

theorem consecutive_of_names (h : Inserted fb) (b : Buffer) (data : ℕ)
    (hr : decode (bytes (fb.serialize b data).1 data (fb.serialize b data).2) = some r)
    (hnames : Names r fb) : Consecutive fb ∧ fb.packets.size ≤ 65535 := by
  obtain ⟨first, hfirst, hmin, hbase⟩ := h.exists_base
  obtain ⟨last, hlast, hmax⟩ := h.exists_last
  obtain ⟨hrbase, hlength⟩ := decode_serialize_shape h b data hr
  have hspan : last.toNat + 1 ≤ first.toNat + fb.packets.size % 65536 := by
    rw [← hlength, ← hbase, ← hrbase]
    exact (((hnames.received_iff last).mp hlast).elim Marks.bounds Marks.bounds).2
  have hcard := Finset.card_le_card (numbers_subset hmin hmax)
  rw [card_numbers, Nat.card_Icc] at hcard
  constructor
  · rw [consecutive_iff_card hfirst hlast hmin hmax]
    omega
  · have hle := UInt32.le_iff_toNat_le.mp (hmin last hlast)
    omega

/-- The report names the packets that were received exactly if their numbers leave no gap and
their count fits sixteen bits. -/
theorem serialize_names_iff (h : Inserted fb) (b : Buffer) (data : ℕ) :
    (∃ r, decode (bytes (fb.serialize b data).1 data (fb.serialize b data).2) = some r ∧
      Names r fb) ↔ Consecutive fb ∧ fb.packets.size ≤ 65535 := by
  constructor
  · intro hex
    obtain ⟨r, hr, hnames⟩ := hex
    exact consecutive_of_names h b data hr hnames
  · intro hcond
    obtain ⟨k, hrep⟩ := h.representable hcond.1 hcond.2
    exact names_of_representable h hrep b data

/-- Packet 100 and one more, a millisecond later. -/
def twoPackets (second : UInt32) : TransportCCFeedBack :=
  (TransportCCFeedBack.insertPacket ⟨0, 0, ∅⟩ 100 5000100).insertPacket second 5001000

theorem inserted_twoPackets (second : UInt32) (hlt : second.toNat < 65536)
    (hlist : (twoPackets second).packets.toList = [(100, 5000100), (second, 5001000)]) :
    Inserted (twoPackets second) := by
  have hentry : ∀ (s : UInt32) (t : UInt64), (twoPackets second).packets[s]? = some t →
      s = 100 ∧ t = 5000100 ∨ s = second ∧ t = 5001000 := by
    intro s t ht
    rw [← (twoPackets second).packets.mem_toList_iff_getElem?_eq_some, hlist] at ht
    simpa using ht
  refine ⟨?_, ?_, ?_, ?_, ?_⟩
  · rw [← (twoPackets second).packets.isEmpty_toList, hlist]
    rfl
  · intro s hs
    obtain ⟨t, ht⟩ := Option.isSome_iff_exists.mp
      ((twoPackets second).packets.mem_iff_isSome_getElem?.mp hs)
    rcases hentry s t ht with ⟨rfl, -⟩ | ⟨rfl, -⟩
    · decide
    · exact hlt
  · intro s t ht
    rcases hentry s t ht with ⟨-, rfl⟩ | ⟨-, rfl⟩ <;> decide
  · intro s t ht
    rcases hentry s t ht with ⟨-, rfl⟩ | ⟨-, rfl⟩ <;> decide
  · have harrivals : arrivals (twoPackets second) = [5000100, 5001000] := by
      rw [arrivals, hlist]
      rfl
    rw [harrivals]
    simp

theorem adjacent_named : Inserted (twoPackets 101) ∧
    ∃ r, decode (bytes ((twoPackets 101).serialize malloc 0).1 0
      ((twoPackets 101).serialize malloc 0).2) = some r ∧ Names r (twoPackets 101) := by
  have h := inserted_twoPackets 101 (by decide) (by decide)
  have hmem : ∀ s, s ∈ (twoPackets 101).packets ↔ s = 100 ∨ s = 101 := by
    intro s
    have hkeys : (twoPackets 101).packets.keys = [100, 101] := by decide
    rw [← (twoPackets 101).packets.mem_keys, hkeys]
    simp
  refine ⟨h, (serialize_names_iff h malloc 0).mpr ⟨?_, by decide⟩⟩
  intro first hfirst last hlast s hle hge
  rw [hmem, ← UInt32.toNat_inj, ← UInt32.toNat_inj] at hfirst hlast ⊢
  rw [UInt32.le_iff_toNat_le] at hle hge
  simp only [UInt32.reduceToNat] at hfirst hlast ⊢
  omega

/-- The status of packet 102 stands in the place of packet 101. -/
theorem skipped_misnamed : Inserted (twoPackets 102) ∧
    (decode (bytes ((twoPackets 102).serialize malloc 0).1 0
      ((twoPackets 102).serialize malloc 0).2)).map (fun r ↦ (r.base, r.statuses)) =
      some (100, [smallDelta, smallDelta]) ∧
    ¬ ∃ r, decode (bytes ((twoPackets 102).serialize malloc 0).1 0
      ((twoPackets 102).serialize malloc 0).2) = some r ∧ Names r (twoPackets 102) := by
  have h := inserted_twoPackets 102 (by decide) (by decide)
  refine ⟨h, by decide +kernel, ?_⟩
  intro hex
  obtain ⟨r, hr, hnames⟩ := hex
  have hall := (consecutive_of_names h malloc 0 hr hnames).1
  have hgap := hall 100 (by decide) 102 (by decide) 101 (by decide) (by decide)
  exact absurd hgap (by decide)

end Spadia.TransportCC.Gaps
