import Spadia.Rtcp.CommonHeader
import Spadia.Rtcp.FeedbackPacket
import Spadia.TransportCC.Serialized

namespace Spadia.Rtcp.FeedbackFraming

open Foundation ByteBuffer Wire.ByteOrder Reports FeedbackPacket TransportCC.Feedback PacketStatus
open TransportCC.Encoding TransportCC.Serialized

section Scan

variable (data data' : ℕ) (count : UInt8)

/-- What the loop collects does not depend on where it writes. -/
theorem deltas_foldl_congr (l : List (UInt32 × UInt64)) {s s' : Scan}
    (hfirst : s.firstReceived = s'.firstReceived) (htime : s.time = s'.time)
    (hdeltas : s.deltas = s'.deltas) :
    (l.foldl (Scan.step data count) s).deltas =
      (l.foldl (Scan.step data' count) s').deltas := by
  induction l generalizing s s' with
  | nil => exact hdeltas
  | cons e l ih =>
    rw [List.foldl_cons, List.foldl_cons]
    by_cases he : e.2 = 0
    · rw [step_absent _ _ s he, step_absent _ _ s' he]
      exact ih hfirst htime hdeltas
    · simp only [Scan.step, he, if_false, ← hfirst]
      cases hs : s.firstReceived with
      | true =>
        simp only [if_true]
        exact ih hfirst (by simp only [htime]) (by simp only [htime, hdeltas])
      | false =>
        -- The first arrival sets the clock of both scans to the same time.
        simp only [Bool.false_eq_true, if_false, Scan.start]
        exact ih rfl rfl (by simp only [hdeltas])

theorem length_deltas_foldl_le (l : List (UInt32 × UInt64)) (s : Scan) :
    (l.foldl (Scan.step data count) s).deltas.length ≤ s.deltas.length + l.length := by
  induction l generalizing s with
  | nil => exact le_refl _
  | cons e l ih =>
    have hstep : (s.step data count e).deltas.length ≤ s.deltas.length + 1 := by
      unfold Scan.step
      split
      case isTrue => simp
      case isFalse => cases s.firstReceived <;> simp [Scan.start]
    have htail := ih (s.step data count e)
    rw [List.foldl_cons, List.length_cons]
    omega

end Scan

/-- The deltas of a feedback, as the loop of `Serialize` collects them. -/
def deltas (fb : TransportCCFeedBack) : List ℤ := (fb.scan malloc 0).deltas

/-- A delta that is written as one byte. -/
def small (delta : ℤ) : Bool := 0 ≤ delta ∧ delta ≤ 127

/-- The size of a message: the header, a chunk for seven packets or fewer, and the deltas, up
to a whole number of words. -/
def feedbackSize (fb : TransportCCFeedBack) : ℕ :=
  (8 + 2 * ((fb.packets.size + 6) / 7) + (deltas fb).countP small +
    2 * (deltas fb).countP (fun delta ↦ ¬ small delta) + 3) / 4 * 4

variable {fb : TransportCCFeedBack}

theorem deltas_scan (fb : TransportCCFeedBack) (b : Buffer) (data : ℕ) :
    (fb.scan b data).deltas = deltas fb :=
  deltas_foldl_congr data 0 fb.feedbackPacketCount fb.packets.toList rfl rfl rfl

theorem length_deltas_le (fb : TransportCCFeedBack) : (deltas fb).length ≤ fb.packets.size := by
  have h := length_deltas_foldl_le 0 fb.feedbackPacketCount fb.packets.toList
    (fb.scanInit malloc 0)
  rw [fb.packets.length_toList] at h
  exact h.trans_eq (Nat.zero_add _)

theorem length_deltaByte (delta : ℤ) :
    (deltaByte delta).length = if small delta then 1 else 2 := by
  unfold deltaByte small
  by_cases h : delta < 0 ∨ delta > 127
  · have hlarge : ¬ (0 ≤ delta ∧ delta ≤ 127) := by omega
    simp [h, hlarge, writeBE16]
  · have hsmall : 0 ≤ delta ∧ delta ≤ 127 := by omega
    simp [h, hsmall]

theorem length_deltaBytes (l : List ℤ) : (deltaBytes l).length =
    l.countP small + 2 * l.countP (fun delta ↦ ¬ small delta) := by
  induction l with
  | nil => rfl
  | cons d l ih =>
    rw [deltaBytes_cons, List.length_append, ih, length_deltaByte]
    cases h : small d <;> simp [h] <;> omega

theorem serialize_size_mod (fb : TransportCCFeedBack) (b : Buffer) (data : ℕ) :
    (fb.serialize b data).2 % 4 = 0 := by
  unfold TransportCCFeedBack.serialize
  split
  case isTrue => rfl
  case isFalse =>
    rw [writePadding_eq]
    simp only
    omega

theorem length_header (base count : UInt16) (word : UInt32) (feedbackCount : UInt16) :
    (header base count word feedbackCount).length = 8 := rfl

/-- With an arrival, `Serialize` writes one block from `data` on and returns its size. -/
theorem serialize_block {e : UInt32 × UInt64} (he : e ∈ fb.packets.toList) (h0 : e.2 ≠ 0)
    (b : Buffer) (data : ℕ) : ∃ out : List UInt8,
      fb.serialize b data = (write b data out, feedbackSize fb) ∧
      out.length = feedbackSize fb := by
  obtain ⟨first, -, -, hfirst⟩ := exists_head_arrivals he h0
  obtain ⟨pad, hpad, hser⟩ := serialize_headed hfirst b data
  have hmod := serialize_size_mod fb b data
  rw [hser] at hmod
  generalize hhead : header (baseNumber fb) _ _ _ = head at hser hmod
  have hlength : (head ++ body (fb.scan b data).statuses (fb.scan b data).deltas pad).length =
      feedbackSize fb := by
    rw [← hhead, List.length_append, length_header] at hmod ⊢
    simp only [body, List.length_append, length_chunkBytes, length_scan_statuses, deltas_scan,
      length_deltaBytes, List.length_replicate] at hmod ⊢
    -- Less than four bytes of padding reach the multiple of four.
    unfold feedbackSize
    omega
  refine ⟨_, ?_, hlength⟩
  rw [hser, hlength]

theorem feedbackSize_le (fb : TransportCCFeedBack) : feedbackSize fb ≤
    (8 + 2 * ((fb.packets.size + 6) / 7) + 2 * fb.packets.size + 3) / 4 * 4 := by
  have hlength := List.length_eq_countP_add_countP small (l := deltas fb)
  have hle := length_deltas_le fb
  unfold feedbackSize
  apply Nat.mul_le_mul_right
  apply Nat.div_le_div_right
  omega

theorem feedbackSize_lt_int (hsize : fb.packets.size ≤ 939524090) : feedbackSize fb < 2 ^ 31 := by
  have h := feedbackSize_le fb
  omega

section Packet

variable (ssrc : UInt32)

def packetHeader (fb : TransportCCFeedBack) : RTCPCommonHeader :=
  { packetType := rtpFeedback, length := UInt16.ofNat (feedbackSize fb + 12)
    count := transportWideFeedbackMessage }

/-- The header, two synchronisation sources and the feedback stand one behind the other. -/
theorem packet_serialize_block {e : UInt32 × UInt64} (he : e ∈ fb.packets.toList)
    (h0 : e.2 ≠ 0) : ∃ out : List UInt8, out.length = 12 + feedbackSize fb ∧
      (packetHeader fb).serialize <+: out ∧
      (RTCPRTPFeedbackPacket.mk ssrc (.transportCC fb)).serialize.1 = write malloc 0 out ∧
      (RTCPRTPFeedbackPacket.mk ssrc (.transportCC fb)).serialize.2 =
        (packetHeader fb).length.toNat := by
  have hssrc : write (write malloc 4 (writeBE32 0)) 8 (writeBE32 ssrc) =
      write malloc 4 (writeBE32 0 ++ writeBE32 ssrc) :=
    write_write_append malloc 4 (writeBE32 0) (writeBE32 ssrc)
  obtain ⟨out, hser, hlength⟩ := serialize_block he h0
    (write malloc 4 (writeBE32 0 ++ writeBE32 ssrc)) 12
  have hout : write (write malloc 4 (writeBE32 0 ++ writeBE32 ssrc)) 12 out =
      write malloc 4 (writeBE32 0 ++ writeBE32 ssrc ++ out) :=
    write_write_append malloc 4 (writeBE32 0 ++ writeBE32 ssrc) out
  have hheader : write (write malloc 4 (writeBE32 0 ++ writeBE32 ssrc ++ out)) 0
      (packetHeader fb).serialize =
        write malloc 0 ((packetHeader fb).serialize ++ (writeBE32 0 ++ writeBE32 ssrc ++ out)) := by
    rw [write_comm malloc 4 0 (l := (packetHeader fb).serialize) (.inr (Nat.le_refl 4))]
    exact write_end malloc rfl _
  have hpacket : (RTCPRTPFeedbackPacket.mk ssrc (.transportCC fb)).serialize =
      (write malloc 0 ((packetHeader fb).serialize ++ (writeBE32 0 ++ writeBE32 ssrc ++ out)),
        (packetHeader fb).length.toNat) := by
    rw [← hheader, ← hout]
    simp only [RTCPRTPFeedbackPacket.serialize, rtcpCommonHeaderSize, Nat.reduceAdd, hssrc,
      FeedBackField.serialize, hser]
    rfl
  refine ⟨_, ?_, List.prefix_append _ _, congrArg Prod.fst hpacket, congrArg Prod.snd hpacket⟩
  simp only [List.length_append, hlength]
  rw [← Nat.add_assoc]
  rfl

/-- The packet keeps to its buffer, and its header gives the size that is returned. -/
structure Framed (p : RTCPRTPFeedbackPacket) (size : ℕ) : Prop where
  inside : ∀ i, p.serialize.1 i ≠ none → i < 1200
  complete : ∀ i < size, p.serialize.1 i ≠ none
  returned : p.serialize.2 = size
  length_eq : ∃ hi lo, p.serialize.1 2 = some hi ∧ p.serialize.1 3 = some lo ∧
    4 * ((be16 hi lo).toNat + 1) = size
  count_eq : ∃ first, p.serialize.1 0 = some first ∧ first &&& 0x1F = 15

theorem feedbackSize_le_of_size_le (hsize : fb.packets.size ≤ 516) : feedbackSize fb ≤ 1188 := by
  have h := feedbackSize_le fb
  omega

theorem packetHeader_length (hsize : fb.packets.size ≤ 516) :
    (packetHeader fb).length.toNat = 12 + feedbackSize fb := by
  have hle := feedbackSize_le_of_size_le hsize
  rw [packetHeader, UInt16.toNat_ofNat_of_lt' (by simp only [UInt16.size]; omega), Nat.add_comm]

theorem packet_framed {e : UInt32 × UInt64} (he : e ∈ fb.packets.toList) (h0 : e.2 ≠ 0)
    (hsize : fb.packets.size ≤ 516) :
    Framed ⟨ssrc, .transportCC fb⟩ (12 + feedbackSize fb) := by
  have hle := feedbackSize_le_of_size_le hsize
  have hheader := packetHeader_length hsize
  obtain ⟨out, hlength, ⟨rest, rfl⟩, hbuffer, hreturned⟩ := packet_serialize_block ssrc he h0
  have hcell {i : ℕ} (hi : i < 12 + feedbackSize fb) :
      (RTCPRTPFeedbackPacket.mk ssrc (.transportCC fb)).serialize.1 i =
        ((packetHeader fb).serialize ++ rest)[i]? := by
    simp [hbuffer, write, hlength, hi]
  have hwords : ((packetHeader fb).length >>> 2 - 1).toNat = _ :=
    CommonHeader.toNat_words (by omega)
  constructor
  · intro i hi
    by_contra hout
    rw [hbuffer, write_outside malloc (.inr (by omega))] at hi
    exact hi rfl
  · intro i hi
    rw [hcell hi]
    simp [hlength, hi]
  · rw [hreturned, hheader]
  · refine ⟨_, _, hcell (by omega), hcell (by omega), ?_⟩
    rw [be16_writeBE16, hwords, hheader]
    -- The shift by two drops nothing.
    have hmod : feedbackSize fb % 4 = 0 := Nat.mul_mod_left _ _
    omega
  · have hcount : transportWideFeedbackMessage.toNat < 32 := by decide
    exact ⟨_, hcell (by omega), (CommonHeader.firstByte_written false hcount).2.1⟩

end Packet

/-- A feedback with an arrival is one block of exactly `feedbackSize` bytes, and up to 516
packets it fits the buffer of the RTCP packet around it. The length in the source is an `int`,
which counts the bytes of up to 939524090 packets. -/
theorem feedback_framed {s : UInt32} {t : UInt64} (hs : fb.packets[s]? = some t) (ht : t ≠ 0) :
    (∀ (b : Buffer) (data : ℕ), ∃ out : List UInt8,
      fb.serialize b data = (write b data out, feedbackSize fb) ∧
      out.length = feedbackSize fb) ∧
    (fb.packets.size ≤ 939524090 → feedbackSize fb < 2 ^ 31) ∧
    (fb.packets.size ≤ 516 →
      ∀ ssrc : UInt32, Framed ⟨ssrc, .transportCC fb⟩ (12 + feedbackSize fb)) := by
  have hmem := fb.packets.mem_toList_iff_getElem?_eq_some.mpr hs
  exact ⟨serialize_block hmem ht, feedbackSize_lt_int,
    fun hsize ssrc ↦ packet_framed ssrc hmem ht hsize⟩

theorem sample_framed : feedbackSize sample = 16 ∧
    (sample.serialize malloc 0).2 = 16 ∧ Framed ⟨1, .transportCC sample⟩ 28 := by
  have hsize : feedbackSize sample = 16 := by
    decide
  have hs : sample.packets[(100 : UInt32)]? = some 5000100 := by
    decide
  obtain ⟨hblock, -, hframed⟩ := feedback_framed hs (by decide)
  refine ⟨hsize, ?_, ?_⟩
  · obtain ⟨out, hser, -⟩ := hblock malloc 0
    rw [hser, hsize]
  · have h := hframed (by decide) 1
    rwa [hsize] at h

end Spadia.Rtcp.FeedbackFraming
