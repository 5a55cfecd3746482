import Spadia.Rtcp.Reports

namespace Spadia.Rtcp.Compound

open Foundation.TracedRead Read Wire.ByteOrder Reports

def isRTCP (size : ℤ) : Read Bool := do
  if size < 4 then
    return false
  let b₁ ← byte 1
  return (b₁ &&& 0x7f) ≥ 64 ∧ (b₁ &&& 0x7f) < 96

/-- The `switch` over the packet type. The constructor of a receiver report parses nothing
and leaves the sender's number as `raw` has it. -/
def construct (raw : UInt32) (pt : UInt8) (data packetLen : ℕ) :
    Read (List RTCPPacketInterface) :=
  if pt = senderReport then do
    let p ← SendReportPacket.parse data packetLen
    return [.sendReport p]
  else if pt = receiverReport then
    return [.receiverReport { ssrc := raw }]
  else return []

def parseLoop (raw : UInt32) (data : ℕ) (len : ℤ) (cnt : ℕ)
    (output : List RTCPPacketInterface) : Read (ℕ × List RTCPPacketInterface) :=
  if _h : 4 ≤ len then do
    let pt ← readBE8 (data + 1)
    let sliceLen ← readBE16 (data + 2)
    let packets ← construct raw pt data (rtcpCommonHeaderSize + sliceLen.toNat * 4)
    parseLoop raw (data + (rtcpCommonHeaderSize + sliceLen.toNat * 4))
      (len - (rtcpCommonHeaderSize + sliceLen.toNat * 4 : ℕ)) (cnt + 1) (output ++ packets)
  else return (cnt, output)
termination_by len.toNat
decreasing_by simp only [rtcpCommonHeaderSize]; omega

/-- `RTCPPacket::Parse`: the number of sub-packets and the objects made from them. -/
def parse (raw : UInt32) (len : ℤ) : Read (ℕ × List RTCPPacketInterface) := parseLoop raw 0 len 0 []

/-- A place where the loop finds a sub-packet, with the bytes of the datagram from there on. -/
structure SubPacket where
  start : ℕ
  remaining : ℤ
deriving DecidableEq, Repr

namespace SubPacket

def packetType (m : Memory) (s : SubPacket) : UInt8 := m (s.start + 1)

def declared (m : Memory) (s : SubPacket) : ℕ :=
  4 + 4 * (be16 (m (s.start + 2)) (m (s.start + 3))).toNat

/-- The sub-packet is not cut off and, if it is a sender report, has its 28 bytes. -/
def Complete (m : Memory) (s : SubPacket) : Prop :=
  s.declared m ≤ s.remaining ∧ (s.packetType m = senderReport → 28 ≤ s.declared m)

instance (m : Memory) (s : SubPacket) : Decidable (s.Complete m) :=
  inferInstanceAs (Decidable (_ ∧ _))

def IsReport (m : Memory) (s : SubPacket) : Prop :=
  s.packetType m = senderReport ∨ s.packetType m = receiverReport

instance (m : Memory) (s : SubPacket) : Decidable (s.IsReport m) :=
  inferInstanceAs (Decidable (_ ∨ _))

def objects (raw : UInt32) (m : Memory) (s : SubPacket) : List RTCPPacketInterface :=
  (construct raw (s.packetType m) s.start (s.declared m)).value m

end SubPacket

def subPackets (m : Memory) (data : ℕ) (len : ℤ) : List SubPacket :=
  if _h : 4 ≤ len then
    ⟨data, len⟩ :: subPackets m (data + SubPacket.declared m ⟨data, len⟩)
      (len - SubPacket.declared m ⟨data, len⟩)
  else []
termination_by len.toNat
decreasing_by simp only [SubPacket.declared]; omega

/-- Compound parsing reads the datagram only and makes objects of complete sub-packets only. -/
structure StaysInside (raw : UInt32) (m : Memory) (len : ℤ) : Prop where
  reads : Inside len.toNat (parse raw len) m
  objects : ((parse raw len).value m).2 =
    ((subPackets m 0 len).filter fun s ↦ s.Complete m).flatMap (SubPacket.objects raw m)

variable {raw : UInt32} {m : Memory} {n : ℕ}

theorem ofInt_toNat {x : ℕ} (h : x < 2 ^ 32) : (UInt32.ofInt x).toNat = x := by
  simp only [UInt32.ofInt, UInt32.toNat_ofNat']
  omega

theorem declared_bounds (s : SubPacket) : 4 ≤ s.declared m ∧ s.declared m < 2 ^ 32 := by
  have hw := (be16 (m (s.start + 2)) (m (s.start + 3))).toNat_lt
  simp only [SubPacket.declared]
  omega

theorem header_length_le (s : SubPacket) :
    (RTCPCommonHeader.at m s.start).length.toNat ≤ s.declared m := by
  simp only [RTCPCommonHeader.at, SubPacket.declared, UInt16.toNat_ofNat', Nat.shiftLeft_eq]
  omega

/-- The 16-bit header length never exceeds the declared length, so a sender report is
always read to its 28th byte. -/
theorem inside_sendReport (s : SubPacket) :
    Inside n (SendReportPacket.parse s.start (s.declared m)) m ↔ s.start + 27 < n := by
  have hd := declared_bounds (m := m) s
  have h₁ : 4 ≤ (UInt32.ofInt (s.declared m)).toNat := by rw [ofInt_toNat hd.2]; exact hd.1
  have h₂ : ¬ ((s.declared m : ℤ) < (RTCPCommonHeader.at m s.start).length.toNat) := by
    have h := header_length_le (m := m) s
    omega
  simp only [SendReportPacket.parse, inside_bind, parse_header_inside h₁, parse_header_value h₁,
    h₂, if_false, inside_readBE32, inside_pure, and_true, rtcpCommonHeaderSize]
  omega

theorem inside_construct (s : SubPacket) :
    Inside n (construct raw (s.packetType m) s.start (s.declared m)) m ↔
      (s.packetType m = senderReport → s.start + 27 < n) := by
  by_cases hs : s.packetType m = senderReport
  · rw [construct, if_pos hs]
    simp [hs, inside_sendReport]
  · rw [construct, if_neg hs]
    simp only [hs, IsEmpty.forall_iff, iff_true]
    split <;> simp

theorem declared_eq (data : ℕ) (len : ℤ) :
    rtcpCommonHeaderSize + (be16 (m (data + 2)) (m (data + 2 + 1))).toNat * 4 =
      SubPacket.declared m ⟨data, len⟩ := by
  simp only [rtcpCommonHeaderSize, SubPacket.declared, Nat.add_assoc, Nat.reduceAdd]
  omega

theorem parseLoop_inside (data : ℕ) (len : ℤ) (cnt : ℕ) (output : List RTCPPacketInterface) :
    Inside n (parseLoop raw data len cnt output) m ↔ ∀ s ∈ subPackets m data len,
      s.start + 3 < n ∧ (s.packetType m = senderReport → s.start + 27 < n) := by
  induction data, len using subPackets.induct m generalizing cnt output with
  | case1 data len h ih =>
    rw [parseLoop, subPackets, dif_pos h, dif_pos h]
    simp only [inside_bind, inside_readBE8, inside_readBE16, value_readBE8, value_readBE16,
      declared_eq data len, List.forall_mem_cons, ih]
    have hc : Inside n (construct raw (m (data + 1)) data (SubPacket.declared m ⟨data, len⟩)) m ↔
        (m (data + 1) = senderReport → data + 27 < n) := inside_construct ⟨data, len⟩
    rw [hc]
    constructor
    · intro h
      obtain ⟨-, h₂, h₃, h₄⟩ := h
      exact ⟨⟨by omega, h₃⟩, h₄⟩
    · intro h
      obtain ⟨⟨h₂, h₃⟩, h₄⟩ := h
      exact ⟨by omega, by omega, h₃, h₄⟩
  | case2 data len h =>
    rw [parseLoop, subPackets, dif_neg h, dif_neg h]
    simp

theorem parseLoop_value (data : ℕ) (len : ℤ) (cnt : ℕ) (output : List RTCPPacketInterface) :
    (parseLoop raw data len cnt output).value m =
      (cnt + (subPackets m data len).length,
        output ++ (subPackets m data len).flatMap (SubPacket.objects raw m)) := by
  induction data, len using subPackets.induct m generalizing cnt output with
  | case1 data len h ih =>
    rw [parseLoop, subPackets, dif_pos h, dif_pos h]
    simp only [value_bind, value_readBE8, value_readBE16, declared_eq data len, ih]
    simp [SubPacket.objects, SubPacket.packetType, Nat.add_assoc, Nat.add_comm 1]
  | case2 data len h =>
    rw [parseLoop, subPackets, dif_neg h, dif_neg h]
    simp

theorem subPackets_spec {data : ℕ} {len : ℤ} {s : SubPacket} (h : s ∈ subPackets m data len) :
    4 ≤ s.remaining ∧ s.start + s.remaining = data + len := by
  induction data, len using subPackets.induct m with
  | case1 data len h' ih =>
    rw [subPackets, dif_pos h'] at h
    rcases List.mem_cons.mp h with rfl | h
    · exact ⟨h', rfl⟩
    · have hs := ih h
      push_cast at hs
      exact ⟨hs.1, by omega⟩
  | case2 data len h' =>
    rw [subPackets, dif_neg h'] at h
    simp at h

theorem objects_length (s : SubPacket) :
    (s.objects raw m).length = if s.IsReport m then 1 else 0 := by
  unfold SubPacket.objects construct SubPacket.IsReport
  by_cases hs : s.packetType m = senderReport
  · simp [hs]
  · simp only [hs, if_false, false_or, value_ite]
    split <;> rfl

theorem objects_eq_nil {s : SubPacket} (h : ¬ s.IsReport m) : s.objects raw m = [] := by
  rw [← List.length_eq_zero_iff, objects_length, if_neg h]

theorem flatMap_objects_length (l : List SubPacket) :
    (l.flatMap (SubPacket.objects raw m)).length = l.countP fun s ↦ s.IsReport m := by
  induction l with
  | nil => rfl
  | cons s l ih => simp [objects_length, ih, List.countP_cons, Nat.add_comm]

theorem countP_filter_eq {α : Type} (p q : α → Bool) (l : List α)
    (h : (l.filter q).countP p = l.countP p) : ∀ a ∈ l, p a → q a := by
  induction l with
  | nil => simp
  | cons a l ih =>
    have hle : (l.filter q).countP p ≤ l.countP p := List.filter_sublist.countP_le
    rw [List.filter_cons, List.countP_cons] at h
    by_cases hq : q a
    · rw [if_pos hq, List.countP_cons] at h
      exact List.forall_mem_cons.mpr ⟨fun _ ↦ hq, ih (by omega)⟩
    · rw [if_neg hq] at h
      by_cases hp : p a
      · rw [if_pos hp] at h
        omega
      · rw [if_neg hp] at h
        exact List.forall_mem_cons.mpr ⟨fun h' ↦ absurd h' hp, ih h⟩

theorem flatMap_filter_eq {α β : Type} (f : α → List β) (q : α → Bool) (l : List α)
    (h : ∀ a ∈ l, ¬ q a → f a = []) : (l.filter q).flatMap f = l.flatMap f := by
  induction l with
  | nil => rfl
  | cons a l ih =>
    have ih' := ih fun b hb ↦ h b (List.mem_cons_of_mem _ hb)
    by_cases hq : q a
    · simp [hq, ih']
    · simp [hq, ih', h a List.mem_cons_self hq]

/-- Compound parsing stays inside the datagram exactly when every report that the walk
meets is complete. -/
theorem compound_staysInside_iff (raw : UInt32) (m : Memory) (len : ℤ) :
    StaysInside raw m len ↔ ∀ s ∈ subPackets m 0 len, s.IsReport m → s.Complete m := by
  constructor
  · intro h
    obtain ⟨-, ho⟩ := h
    rw [parse, parseLoop_value, List.nil_append] at ho
    -- Every report gives one object, so an incomplete report would show in the count.
    have hl := congrArg List.length ho
    simp only [flatMap_objects_length] at hl
    have hc := countP_filter_eq _ _ _ hl.symm
    simpa using hc
  · intro h
    refine ⟨(parseLoop_inside 0 len 0 []).mpr fun s hs ↦ ?_, ?_⟩
    · obtain ⟨h₁, h₂⟩ := subPackets_spec hs
      refine ⟨by omega, fun ht ↦ ?_⟩
      obtain ⟨h₃, h₄⟩ := h s hs (.inl ht)
      have h₅ := h₄ ht
      omega
    · rw [parse, parseLoop_value, List.nil_append]
      refine (flatMap_filter_eq _ _ _ fun s hs hn ↦ objects_eq_nil fun hr ↦ hn ?_).symm
      exact decide_eq_true (h s hs hr)

/-- Four bytes that claim to be a sender report: it is decoded from the 24 bytes behind them. -/
theorem shortSendReport_escapes : ¬ StaysInside 0 (ofList [0x80, 200, 0, 0]) 4 := by
  intro h
  have hr := h.reads 27 (by decide +kernel)
  exact absurd hr (by decide)

end Spadia.Rtcp.Compound
