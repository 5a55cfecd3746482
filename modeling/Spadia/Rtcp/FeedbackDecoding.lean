import Spadia.Rtcp.FeedbackPacket
import Spadia.TransportCC.Serialized

namespace Spadia.Rtcp.FeedbackDecoding

open Foundation TracedRead Read ByteBuffer Wire.ByteOrder Reports FeedbackPacket
open TransportCC.Feedback
open TransportCC.Offset hiding parse

def deltaWidth : PacketStatus → ℕ
  | .smallDelta => 1
  | .largeOrNegativeDelta => 2
  | .notReceived | .reserved => 0

/-- The chunks from the 32-bit offset `len` on, up to the one that completes `count` statuses, end
inside of the datagram; the statuses and the offset behind them. -/
inductive ChunksFit (m : Memory) (data size : ℕ) (count : UInt16) :
    List PacketStatus → UInt32 → List PacketStatus → UInt32 → Prop
  | done {statuses : List PacketStatus} {len : UInt32} (hcount : count.toNat ≤ statuses.length) :
      ChunksFit m data size count statuses len statuses len
  | chunk {statuses found : List PacketStatus} {len stop : UInt32}
      (hcount : statuses.length < count.toNat) (hfits : data + len.toNat + 2 ≤ size)
      (hrest : ChunksFit m data size count (statuses ++
        chunkSymbols (be16 (m (data + len.toNat)) (m (data + len.toNat + 1)))) (len + 2)
        found stop) : ChunksFit m data size count statuses len found stop

def DeltasFit (data size : ℕ) : List PacketStatus → UInt32 → Prop
  | [], _ => True
  | s :: l, len => data + len.toNat + deltaWidth s ≤ size ∧
      DeltasFit data size l (len + UInt32.ofNat (deltaWidth s))

/-- The status chunks and deltas that the count at `data + 2` calls for end in the datagram. -/
def FieldFits (m : Memory) (data size : ℕ) : Prop :=
  ∃ statuses len, ChunksFit m data size (statusCount m data) [] 8 statuses len ∧
    DeltasFit data size (statuses.take (statusCount m data).toNat) len

variable {m : Memory} {data size : ℕ}

theorem toNat_add_le (len k : UInt32) : (len + k).toNat ≤ len.toNat + k.toNat := by
  rw [UInt32.toNat_add]
  exact Nat.mod_le _ _

section Chunks

variable {count : UInt16} {statuses found : List PacketStatus} {len stop : UInt32}

theorem chunkLoop_goes_on (hdata : 2 ≤ data) (hlen : data + len.toNat ≤ size) :
    ¬ ((len + 2).toNat : ℤ) > size := by
  -- The bound counts from the start of the packet, and the offset from `data` on.
  have hle : (len + 2).toNat ≤ len.toNat + 2 := toNat_add_le len 2
  omega

theorem ChunksFit.loop (h : ChunksFit m data size count statuses len found stop)
    (hdata : 2 ≤ data) (hlen : data + len.toNat ≤ size) :
    (∀ rounds, Inside size (chunkLoop data size count rounds statuses len) m ∧
      ((chunkLoop data size count rounds statuses len).value m = .running ∨
        (chunkLoop data size count rounds statuses len).value m = .done found stop)) ∧
    (∃ rounds, (chunkLoop data size count rounds statuses len).value m = .done found stop) ∧
    data + stop.toNat ≤ size ∧ count.toNat ≤ found.length := by
  induction h with
  | done hcount =>
    refine ⟨fun rounds ↦ ?_, ⟨0, ?_⟩, hlen, hcount⟩
    · rw [chunkLoop_done rounds hcount]
      exact ⟨inside_pure _, .inr rfl⟩
    · rw [chunkLoop_done 0 hcount]
      rfl
  | @chunk statuses found len stop hcount hfits _ ih =>
    have hgo := chunkLoop_goes_on hdata hlen
    have hle : (len + 2).toNat ≤ len.toNat + 2 := toNat_add_le len 2
    obtain ⟨hall, ⟨rounds, hdone⟩, hstop, hfound⟩ := ih (by omega)
    refine ⟨fun rounds ↦ ?_, ⟨rounds + 1, ?_⟩, hstop, hfound⟩
    · cases rounds with
      | zero =>
        rw [chunkLoop, if_pos hcount]
        exact ⟨inside_pure _, .inl rfl⟩
      | succ rounds =>
        rw [chunkLoop_next rounds hcount hgo, inside_bind, inside_readBE16, value_bind,
          value_readBE16]
        exact ⟨⟨by omega, (hall rounds).1⟩, (hall rounds).2⟩
    · rw [chunkLoop_next rounds hcount hgo, value_bind, value_readBE16]
      exact hdone

theorem chunksFit_of_loop {rounds : ℕ} (hdata : 2 ≤ data) (hlen : data + len.toNat ≤ size)
    (hinside : Inside size (chunkLoop data size count rounds statuses len) m)
    (hends : (chunkLoop data size count rounds statuses len).value m ≠ .running) :
    ∃ found stop, ChunksFit m data size count statuses len found stop := by
  induction rounds generalizing statuses len with
  | zero =>
    refine ⟨statuses, len, .done (Nat.le_of_not_lt fun hcount ↦ hends ?_)⟩
    rw [chunkLoop, if_pos hcount]
    rfl
  | succ rounds ih =>
    by_cases hcount : statuses.length < count.toNat
    · have hle : (len + 2).toNat ≤ len.toNat + 2 := toNat_add_le len 2
      rw [chunkLoop_next rounds hcount (chunkLoop_goes_on hdata hlen)] at hinside hends
      rw [inside_bind, inside_readBE16] at hinside
      obtain ⟨found, stop, hrest⟩ := ih (by omega) hinside.2 hends
      exact ⟨found, stop, .chunk hcount (by omega) hrest⟩
    · exact ⟨statuses, len, .done (Nat.le_of_not_lt hcount)⟩

end Chunks

theorem drop_take_eq_cons {statuses : List PacketStatus} {count i : ℕ} (hi : i < count)
    {s : PacketStatus} (hs : statuses[i]? = some s) :
    (statuses.take count).drop i = s :: (statuses.take count).drop (i + 1) := by
  have hget : (statuses.take count)[i]? = some s := by rw [List.getElem?_take_of_lt hi, hs]
  obtain ⟨hlt, hget⟩ := List.getElem?_eq_some_iff.mp hget
  rw [List.drop_eq_getElem_cons hlt, hget]

theorem delta_inside {len k : UInt32} {P Q : Prop}
    (h : data + (len + k).toNat ≤ size → (P ↔ Q)) :
    data + len.toNat + k.toNat ≤ size ∧ P ↔ data + len.toNat + k.toNat ≤ size ∧ Q := by
  refine and_congr_right fun hk ↦ h ?_
  have hle := toNat_add_le len k
  omega

theorem deltaLoop_inside_iff (hdata : 2 ≤ data) (base : UInt32) {count : ℕ}
    {statuses : List PacketStatus} (hcount : count ≤ statuses.length) (i : ℕ) (len : UInt32)
    (time : UInt64) (packets : Std.ExtTreeMap UInt32 UInt64) (hlen : data + len.toNat ≤ size) :
    Inside size (deltaLoop data size base count statuses i len time packets) m ↔
      DeltasFit data size ((statuses.take count).drop i) len := by
  have hone : (1 : UInt32).toNat = 1 := rfl
  have htwo : (2 : UInt32).toNat = 2 := rfl
  induction i, len, time, packets using deltaLoop.induct size base count statuses with
  | case1 i len time packets hi hs =>
    have hnone := List.getElem?_eq_none_iff.mp hs
    omega
  | case2 i len time packets hi hs ih =>
    rw [deltaLoop, if_pos hi, hs, drop_take_eq_cons hi hs, DeltasFit, deltaWidth]
    simpa [hlen] using ih hlen
  | case3 i len time packets hi hs hend =>
    have hle := toNat_add_le len 1
    omega
  | case4 i len time packets hi hs hend ih =>
    rw [deltaLoop, if_pos hi, hs, drop_take_eq_cons hi hs, DeltasFit]
    simp only [hend, if_false, inside_bind, inside_readBE8]
    exact delta_inside (k := 1) (ih (m (data + len.toNat)))
  | case5 i len time packets hi hs hend =>
    have hle := toNat_add_le len 2
    omega
  | case6 i len time packets hi hs hend ih =>
    rw [deltaLoop, if_pos hi, hs, drop_take_eq_cons hi hs, DeltasFit]
    simp only [hend, if_false, inside_bind, inside_readShort]
    exact delta_inside (k := 2) (ih ((readShort (data + len.toNat)).value m))
  | case7 i len time packets hi hs ih =>
    rw [deltaLoop, if_pos hi, hs, drop_take_eq_cons hi hs, DeltasFit, deltaWidth]
    simpa [hlen] using ih hlen
  | case8 i len time packets hi =>
    have hnil : (statuses.take count).drop i = [] := by
      rw [List.drop_eq_nil_iff]
      exact (List.length_take_le _ _).trans (Nat.le_of_not_lt hi)
    rw [deltaLoop, if_neg hi, hnil]
    exact iff_of_true (inside_pure _) trivial

theorem isSome_deltaLoop (size : ℤ) (base : UInt32) {count : ℕ} {statuses : List PacketStatus}
    (hcount : count ≤ statuses.length) (i : ℕ) (len : UInt32) (time : UInt64)
    (packets : Std.ExtTreeMap UInt32 UInt64) :
    ((deltaLoop data size base count statuses i len time packets).value m).isSome := by
  induction i, len, time, packets using deltaLoop.induct size base count statuses with
  | case1 i len time packets hi hs =>
    have hnone := List.getElem?_eq_none_iff.mp hs
    omega
  | case2 i len time packets hi hs ih =>
    rw [deltaLoop, if_pos hi, hs]
    exact ih
  | case3 i len time packets hi hs hend =>
    rw [deltaLoop, if_pos hi, hs]
    simp only [hend, if_true]
    rfl
  | case4 i len time packets hi hs hend ih =>
    rw [deltaLoop, if_pos hi, hs]
    simp only [hend, if_false, value_bind]
    exact ih _
  | case5 i len time packets hi hs hend =>
    rw [deltaLoop, if_pos hi, hs]
    simp only [hend, if_true]
    rfl
  | case6 i len time packets hi hs hend ih =>
    rw [deltaLoop, if_pos hi, hs]
    simp only [hend, if_false, value_bind]
    exact ih _
  | case7 i len time packets hi hs ih =>
    rw [deltaLoop, if_pos hi, hs]
    exact ih
  | case8 i len time packets hi =>
    rw [deltaLoop, if_neg hi]
    rfl

theorem finish_done (fb : TransportCCFeedBack) (base : UInt32) (hdata : 2 ≤ data) {count : UInt16}
    {found : List PacketStatus} {stop : UInt32} (hcount : count.toNat ≤ found.length)
    (hstop : data + stop.toNat ≤ size) :
    (Inside size (finish fb data size base count (.done found stop)) m ↔
      DeltasFit data size (found.take count.toNat) stop) ∧
    ∃ fb', (finish fb data size base count (.done found stop)).value m = .returned fb' := by
  have hsome : ((deltaLoop data size base count.toNat found 0 stop
      (fb.referenceTime * 64000).toUInt64 fb.packets).value m).isSome :=
    isSome_deltaLoop size base hcount 0 stop _ _
  obtain ⟨packets, hpackets⟩ := Option.isSome_iff_exists.mp hsome
  simp only [finish, inside_bind, deltaLoop_inside_iff hdata base hcount _ _ _ _ hstop,
    List.drop_zero, value_bind, hpackets, inside_pure, and_true, value_pure]
  exact ⟨trivial, _, rfl⟩

structure FieldSafe (fb : TransportCCFeedBack) (m : Memory) (data size : ℕ) : Prop where
  ends : ∃ rounds, (TransportCC.Offset.parse rounds fb data size).value m ≠ .running
  inside : ∀ rounds, Inside size (TransportCC.Offset.parse rounds fb data size) m
  indexed : ∀ rounds, (TransportCC.Offset.parse rounds fb data size).value m ≠ .badIndex

theorem fieldSafe_iff (fb : TransportCCFeedBack) (hdata : 2 ≤ data) (hsize : data + 8 ≤ size) :
    FieldSafe fb m data size ↔ FieldFits m data size := by
  have h8 : ¬ ((size : ℤ) < 8) := by omega
  have hlen : data + (8 : UInt32).toNat ≤ size := hsize
  constructor
  · intro h
    obtain ⟨rounds, hends⟩ := h.ends
    have hinside (rounds : ℕ) := h.inside rounds
    simp only [parse_inside _ fb h8 hsize, parseFrom, inside_bind] at hinside
    rw [parse_value rounds fb h8, parseFrom, value_bind] at hends
    have hchunks : (chunkLoop data size (statusCount m data) rounds [] 8).value m ≠ .running := by
      intro hrunning
      rw [hrunning] at hends
      exact hends rfl
    obtain ⟨found, stop, hfit⟩ := chunksFit_of_loop hdata hlen (hinside rounds).1 hchunks
    obtain ⟨-, ⟨rounds', hdone⟩, hstop, hcount⟩ := hfit.loop hdata hlen
    refine ⟨found, stop, hfit, ?_⟩
    have hdeltas := (hinside rounds').2
    rwa [hdone, (finish_done _ _ hdata hcount hstop).1] at hdeltas
  · intro h
    obtain ⟨found, stop, hfit, hdeltas⟩ := h
    obtain ⟨hall, ⟨rounds, hdone⟩, hstop, hcount⟩ := hfit.loop hdata hlen
    obtain ⟨hinside, fb', hreturned⟩ := finish_done (m := m) (headed fb m data)
      (be32 (m data) (m (data + 1)) (m (data + 2)) (m (data + 3))) hdata hcount hstop
    refine ⟨⟨rounds, ?_⟩, fun rounds ↦ ?_, fun rounds ↦ ?_⟩
    · rw [parse_value rounds fb h8, parseFrom, value_bind, hdone, hreturned]
      simp
    · rw [parse_inside rounds fb h8 hsize, parseFrom, inside_bind]
      refine ⟨(hall rounds).1, ?_⟩
      rcases (hall rounds).2 with hvalue | hvalue
      · rw [hvalue]
        exact inside_pure _
      · rw [hvalue]
        exact hinside.mpr hdeltas
    · rw [parse_value rounds fb h8, parseFrom, value_bind]
      rcases (hall rounds).2 with hvalue | hvalue
      · rw [hvalue]
        simp [finish]
      · rw [hvalue, hreturned]
        simp

/-- The constructor comes to an end, reads the datagram only, and comes to a field. -/
structure Safe (raw : UInt8) (m : Memory) (size : ℕ) : Prop where
  ends : ∃ rounds, (RTCPRTPFeedbackPacket.create rounds raw 0 size).value m ≠ .running
  inside : ∀ rounds, Inside size (RTCPRTPFeedbackPacket.create rounds raw 0 size) m
  indexed : ∀ rounds, (RTCPRTPFeedbackPacket.create rounds raw 0 size).value m ≠ .badIndex
  notNull : ∀ rounds, (RTCPRTPFeedbackPacket.create rounds raw 0 size).value m ≠ .nullField

/-- The byte at offset 4, which is taken for the first byte of the header, names a field
type, and that field lies in the datagram from offset 16 on. -/
def FieldAt16 (m : Memory) (size : ℕ) : Prop :=
  4 ≤ size % 2 ^ 32 ∧ 24 ≤ size ∧
    (m 4 &&& 0x1F = nackType ∨
      m 4 &&& 0x1F = transportWideFeedbackMessage ∧ FieldFits m 16 size)

theorem toNat_size (size : ℕ) : (UInt32.ofInt size).toNat = size % 2 ^ 32 := by
  simp only [UInt32.ofInt, UInt32.toNat_ofNat']
  omega

theorem nack_inside (data : ℕ) (bound : ℤ) :
    Inside size (NackFeedBack.parse data bound) m ↔ data + 8 ≤ size := by
  simp only [NackFeedBack.parse, inside_bind, inside_readBE32, inside_readBE16, inside_pure,
    and_true]
  omega

section Create

variable (raw : UInt8) (rounds : ℕ)

theorem create_value_short (h : size % 2 ^ 32 < 4) :
    (RTCPRTPFeedbackPacket.create rounds raw 0 size).value m = .nullField := by
  have hshort : (UInt32.ofInt size).toNat < rtcpCommonHeaderSize := by rwa [toNat_size]
  simp only [RTCPRTPFeedbackPacket.create, RTCPRTPFeedbackPacket.parse, RTCPCommonHeader.parse,
    hshort, if_true, value_bind, value_pure]
  rfl

variable (hsize : 4 ≤ size % 2 ^ 32)

include hsize

theorem create_cases : (RTCPRTPFeedbackPacket.create rounds raw 0 size).value m =
      (if m 4 &&& 0x1F = nackType then
        .made ⟨be32 (m 12) (m 13) (m 14) (m 15), .nack ((NackFeedBack.parse 16 size).value m)⟩
      else if m 4 &&& 0x1F = transportWideFeedbackMessage then
        .ofField (be32 (m 12) (m 13) (m 14) (m 15))
          ((TransportCC.Offset.parse rounds { feedbackPacketCount := raw } 16 size).value m)
      else .nullField) ∧
    (Inside size (RTCPRTPFeedbackPacket.create rounds raw 0 size) m ↔ 16 ≤ size ∧
      (m 4 &&& 0x1F = nackType → 24 ≤ size) ∧
      (m 4 &&& 0x1F = transportWideFeedbackMessage → Inside size
        (TransportCC.Offset.parse rounds { feedbackPacketCount := raw } 16 size) m)) := by
  have hheader : 4 ≤ (UInt32.ofInt size).toNat := by rwa [toNat_size]
  have hcount : ((some (RTCPCommonHeader.at m 4)).getD {}).count = m 4 &&& 0x1F := rfl
  have hne : transportWideFeedbackMessage ≠ nackType := by decide
  simp only [RTCPRTPFeedbackPacket.create, RTCPRTPFeedbackPacket.parse, inside_bind, value_bind,
    parse_header_inside hheader, parse_header_value hheader, hcount, rtcpCommonHeaderSize,
    inside_readBE32, value_readBE32, Nat.reduceAdd]
  by_cases hnack : m 4 &&& 0x1F = nackType
  · simp only [hnack, hne.symm, if_true, inside_bind, nack_inside, inside_pure, and_true,
      value_bind, value_pure, false_implies, forall_const, true_and]
    omega
  · by_cases hwide : m 4 &&& 0x1F = transportWideFeedbackMessage
    · simp only [hwide, hne, if_true, if_false, inside_bind, inside_pure, and_true, value_bind,
        value_pure, false_implies, forall_const, true_and]
      constructor
      · intro h
        exact ⟨by omega, h.2.2.2⟩
      · intro h
        exact ⟨by omega, by omega, by omega, h.2⟩
    · simp only [hnack, hwide, if_false, inside_pure, value_pure, false_implies, and_true,
        true_and]
      omega

end Create

theorem ofField_running {ssrc : UInt32} {field : TransportCC.Offset.Progress} :
    Received.ofField ssrc field = .running ↔ field = .running := by
  cases field <;> simp [Received.ofField]

theorem ofField_badIndex {ssrc : UInt32} {field : TransportCC.Offset.Progress} :
    Received.ofField ssrc field = .badIndex ↔ field = .badIndex := by
  cases field <;> simp [Received.ofField]

theorem ofField_nullField (ssrc : UInt32) (field : TransportCC.Offset.Progress) :
    Received.ofField ssrc field ≠ .nullField := by
  cases field <;> simp [Received.ofField]

variable (raw : UInt8)

theorem safe_of_nack (hsize : 4 ≤ size % 2 ^ 32) (hnack : m 4 &&& 0x1F = nackType) :
    Safe raw m size ↔ 24 ≤ size := by
  have hne : nackType ≠ transportWideFeedbackMessage := by decide
  have hvalue (rounds : ℕ) := (create_cases (m := m) raw rounds hsize).1
  have hinside (rounds : ℕ) := (create_cases (m := m) raw rounds hsize).2
  simp only [hnack, if_true] at hvalue
  simp only [hnack, hne, false_implies, and_true, forall_const] at hinside
  constructor
  · intro h
    exact ((hinside 0).mp (h.inside 0)).2
  · intro h
    refine ⟨⟨0, ?_⟩, fun rounds ↦ (hinside rounds).mpr ⟨by omega, h⟩, fun rounds ↦ ?_,
      fun rounds ↦ ?_⟩
    · simp [hvalue]
    · simp [hvalue]
    · simp [hvalue]

theorem safe_of_wide (hsize : 4 ≤ size % 2 ^ 32)
    (hwide : m 4 &&& 0x1F = transportWideFeedbackMessage) :
    Safe raw m size ↔ 16 ≤ size ∧ FieldSafe { feedbackPacketCount := raw } m 16 size := by
  have hne : transportWideFeedbackMessage ≠ nackType := by decide
  have hvalue (rounds : ℕ) := (create_cases (m := m) raw rounds hsize).1
  have hinside (rounds : ℕ) := (create_cases (m := m) raw rounds hsize).2
  simp only [hwide, hne, if_true, if_false] at hvalue
  simp only [hwide, hne, false_implies, true_and, forall_const] at hinside
  constructor
  · intro h
    obtain ⟨rounds, hends⟩ := h.ends
    rw [hvalue, ne_eq, ofField_running] at hends
    refine ⟨((hinside 0).mp (h.inside 0)).1, ⟨rounds, hends⟩,
      fun rounds ↦ ((hinside rounds).mp (h.inside rounds)).2, fun rounds ↦ ?_⟩
    have hindexed := h.indexed rounds
    rwa [hvalue, ne_eq, ofField_badIndex] at hindexed
  · intro h
    obtain ⟨h16, hfield⟩ := h
    obtain ⟨rounds, hends⟩ := hfield.ends
    refine ⟨⟨rounds, ?_⟩, fun rounds ↦ (hinside rounds).mpr ⟨h16, hfield.inside rounds⟩,
      fun rounds ↦ ?_, fun rounds ↦ ?_⟩
    · rwa [hvalue, ne_eq, ofField_running]
    · rw [hvalue, ne_eq, ofField_badIndex]
      exact hfield.indexed rounds
    · rw [hvalue]
      exact ofField_nullField _ _

theorem FieldSafe.size_le {fb : TransportCCFeedBack} (h : FieldSafe fb m data size)
    (hdata : 8 ≤ data) (hsize : data ≤ size) : data + 8 ≤ size := by
  have hinside := h.inside 0
  have h8 : ¬ ((size : ℤ) < 8) := by omega
  simp only [TransportCC.Offset.parse, h8, if_false, inside_bind, inside_readBE8] at hinside
  omega

theorem safe_iff : Safe raw m size ↔ FieldAt16 m size := by
  by_cases hsize : 4 ≤ size % 2 ^ 32
  · by_cases hnack : m 4 &&& 0x1F = nackType
    · rw [safe_of_nack raw hsize hnack]
      exact ⟨fun h ↦ ⟨hsize, h, .inl hnack⟩, fun h ↦ h.2.1⟩
    · by_cases hwide : m 4 &&& 0x1F = transportWideFeedbackMessage
      · rw [safe_of_wide raw hsize hwide]
        constructor
        · intro h
          have h24 := h.2.size_le (by decide) h.1
          exact ⟨hsize, h24, .inr ⟨hwide, (fieldSafe_iff _ (by decide) h24).mp h.2⟩⟩
        · intro h
          obtain ⟨-, h24, hfield⟩ := h
          have hfits := (hfield.resolve_left hnack).2
          exact ⟨by omega, (fieldSafe_iff _ (by decide) h24).mpr hfits⟩
      · refine iff_of_false (fun h ↦ h.notNull 0 ?_) ?_
        · rw [(create_cases raw 0 hsize).1, if_neg hnack, if_neg hwide]
        · intro h
          exact h.2.2.elim hnack fun hfield ↦ hwide hfield.1
  · refine iff_of_false (fun h ↦ h.notNull 0 ?_) fun h ↦ hsize h.1
    exact create_value_short raw 0 (Nat.lt_of_not_le hsize)

/-- Decoding gives back the sender's number and the type of the field, and reads the field
from the bytes behind the twelve fixed ones. -/
structure Decoded (p : RTCPRTPFeedbackPacket) (m : Memory) : Prop where
  inside : ∀ rounds,
    Inside p.serialize.2 (RTCPRTPFeedbackPacket.create rounds raw 0 p.serialize.2) m
  restored : ∃ rounds q, (RTCPRTPFeedbackPacket.create rounds raw 0 p.serialize.2).value m =
      .made q ∧ q.ssrc = p.ssrc ∧ q.field.type = p.field.type ∧
    q.field = (p.field.parse raw 12 (p.serialize.2 - 12)).value m

theorem scan_below (fb : TransportCCFeedBack) (b : Buffer) {i : ℕ} (hi : i < data) :
    (fb.scan b data).buffer i = b i := by
  have hstep (l : List (UInt32 × UInt64)) (s : Scan) :
      (l.foldl (Scan.step data fb.feedbackPacketCount) s).buffer i = s.buffer i := by
    induction l generalizing s with
    | nil => rfl
    | cons e l ih =>
      rw [List.foldl_cons, ih, Scan.step]
      split
      · rfl
      · by_cases hfirst : s.firstReceived
        · simp only [hfirst, if_true]
        · simp only [hfirst, if_false, Bool.false_eq_true, Scan.start]
          rw [write_outside _ (.inl (by omega)), write_outside _ (.inl (by omega))]
  rw [TransportCCFeedBack.scan, hstep, TransportCCFeedBack.scanInit]
  simp only
  rw [write_outside _ (.inl (by omega)), write_outside _ (.inl (by omega))]

theorem field_below (field : FeedBackField) (b : Buffer) {i : ℕ} (hi : i < data) :
    (field.serialize b data).1 i = b i := by
  cases field with
  | nack fb =>
    simp only [FeedBackField.serialize, NackFeedBack.serialize]
    rw [write_outside _ (.inl (by omega)), write_outside _ (.inl (by omega)),
      write_outside _ (.inl (by omega))]
  | transportCC fb =>
    simp only [FeedBackField.serialize, TransportCCFeedBack.serialize]
    split
    · rfl
    · obtain ⟨pad, -, hbody⟩ := TransportCC.Serialized.write_body (fb.scan b data) data
      rw [hbody]
      exact (write_outside _ (.inl (by omega))).trans (scan_below fb b hi)

theorem serialize_four (p : RTCPRTPFeedbackPacket) : p.serialize.1 4 = some 0 := by
  simp only [RTCPRTPFeedbackPacket.serialize, rtcpCommonHeaderSize]
  rw [write_outside _ (.inr (Nat.le_refl 4)), field_below _ _ (by decide)]
  rfl

theorem serialized_not_made (p : RTCPRTPFeedbackPacket)
    (h : Stores m 0 (bytes p.serialize.1 0 p.serialize.2)) {rounds : ℕ}
    (hinside : Inside p.serialize.2 (RTCPRTPFeedbackPacket.create rounds raw 0 p.serialize.2) m)
    (q : RTCPRTPFeedbackPacket) :
    (RTCPRTPFeedbackPacket.create rounds raw 0 p.serialize.2).value m ≠ .made q := by
  by_cases hsize : 4 ≤ p.serialize.2 % 2 ^ 32
  · obtain ⟨hvalue, hreads⟩ := create_cases (m := m) raw rounds hsize
    have h16 := (hreads.mp hinside).1
    -- The constructor looks for the type of the field in the SSRC of the sender.
    have hbyte : m 4 = 0 := by
      have hget := h.getElem (j := 4) (by rw [length_bytes]; omega)
      simpa [bytes, serialize_four] using hget
    have hnack : ¬ m 4 &&& 0x1F = nackType := by rw [hbyte]; decide
    have hwide : ¬ m 4 &&& 0x1F = transportWideFeedbackMessage := by rw [hbyte]; decide
    rw [hvalue, if_neg hnack, if_neg hwide]
    simp
  · rw [create_value_short raw rounds (Nat.lt_of_not_le hsize)]
    simp

/-- No packet is decoded from its own bytes. For a datagram of any size and content, the
constructor is safe exactly if a field lies where it looks for one. -/
theorem feedback_decoded_iff :
    (∀ (p : RTCPRTPFeedbackPacket) (m : Memory),
      Stores m 0 (bytes p.serialize.1 0 p.serialize.2) → ¬ Decoded raw p m) ∧
    ∀ (m : Memory) (size : ℕ), Safe raw m size ↔ FieldAt16 m size := by
  refine ⟨?_, fun m size ↦ safe_iff raw⟩
  intro p m hm hd
  obtain ⟨rounds, q, hq, -⟩ := hd.restored
  exact serialized_not_made raw p hm (hd.inside rounds) q hq

def nackPacket : RTCPRTPFeedbackPacket := ⟨7, .nack ⟨9, 100, 3⟩⟩

def nackMemory : Memory := ofList (bytes nackPacket.serialize.1 0 nackPacket.serialize.2)

theorem nackPacket_not_decoded : ¬ Decoded 0 nackPacket nackMemory ∧
    Safe 0 (ofList [0x81, 205, 0, 5, 1]) 24 := by
  have hm : Stores nackMemory 0 (bytes nackPacket.serialize.1 0 nackPacket.serialize.2) := by decide
  exact ⟨(feedback_decoded_iff 0).1 nackPacket nackMemory hm, ((feedback_decoded_iff 0).2 _ _).mpr
    ⟨by decide, by decide, .inl (by decide)⟩⟩

theorem nackPacket_null_field :
    (∀ rounds, (RTCPRTPFeedbackPacket.create rounds 0 0 nackPacket.serialize.2).value nackMemory =
      .nullField) ∧ ¬ Decoded 0 nackPacket nackMemory := by
  have hsize : 4 ≤ nackPacket.serialize.2 % 2 ^ 32 := by decide +kernel
  have hnull (rounds : ℕ) : (RTCPRTPFeedbackPacket.create rounds 0 0
      nackPacket.serialize.2).value nackMemory = .nullField := by
    rw [(create_cases 0 rounds hsize).1, if_neg (by decide +kernel), if_neg (by decide +kernel)]
  refine ⟨hnull, ?_⟩
  intro h
  obtain ⟨rounds, q, hq, -⟩ := h.restored
  rw [hnull] at hq
  cases hq

end Spadia.Rtcp.FeedbackDecoding
