import Spadia.TransportCC.Serialized

namespace Spadia.TransportCC.Header

open Foundation ByteBuffer Wire.ByteOrder Feedback PacketStatus Encoding Serialized

variable {fb : TransportCCFeedBack} (b : Buffer) (data : ℕ)

/-- The 64 ms in which the first packet arrived, counted in the bits that the code keeps. -/
def referenceTime (fb : TransportCCFeedBack) : ℕ :=
  (arrivals fb).head?.elim 0 fun t ↦ t.toNat / 64000 % 2 ^ 23

def writeBE24 (x : ℕ) : List UInt8 :=
  [UInt8.ofNat (x / 2 ^ 16), UInt8.ofNat (x / 2 ^ 8), UInt8.ofNat x]

/-- The message starts with the base number, the status count, the reference time and the
feedback count, and the chunks come right behind. -/
def Complete (fb : TransportCCFeedBack) : Prop :=
  ∃ rest, bytes (fb.serialize b data).1 data (fb.serialize b data).2 =
    writeBE16 (baseNumber fb) ++ writeBE16 (UInt16.ofNat fb.packets.size) ++
      (writeBE24 (referenceTime fb) ++ [fb.feedbackPacketCount]) ++
      (chunkBytes (fb.scan b data).statuses ++ rest)

theorem writeBE24_of_word {x : ℕ} (hx : x < 2 ^ 23) :
    [(UInt32.ofNat (x * 256) >>> 24).toUInt8, (UInt32.ofNat (x * 256) >>> 16).toUInt8,
      (UInt32.ofNat (x * 256) >>> 8).toUInt8] = writeBE24 x := by
  simp only [writeBE24, List.cons.injEq, and_true]
  refine ⟨?_, ?_, ?_⟩
  all_goals
    apply UInt8.toNat_inj.mp
    simp [UInt32.toNat_shiftRight, Nat.shiftRight_eq_div_pow]
    omega

theorem upper_toUInt16 (count : UInt8) : (count.toUInt16 >>> 8).toUInt8 = 0 := by
  apply UInt8.toNat_inj.mp
  have hlt := count.toNat_lt
  simp [UInt16.toNat_shiftRight, Nat.shiftRight_eq_div_pow]
  omega

theorem referenceTime_eq {t : ℕ} (ht : (arrivals fb).head? = some (t : ℤ)) :
    referenceTime fb = (t / 64000) &&& 0x7FFFFF := by
  rw [referenceTime, ht, Option.elim_some, Int.toNat_natCast]
  exact (Nat.and_two_pow_sub_one_eq_mod _ 23).symm

/-- The three bytes of the reference time are right in any case. -/
theorem complete_headed_iff {t : ℕ} (ht : (arrivals fb).head? = some (t : ℤ)) :
    Complete b data fb ↔ fb.feedbackPacketCount = 0 := by
  obtain ⟨pad, -, hser⟩ := serialize_headed ht b data
  have hbytes := congrArg (fun out : Buffer × ℕ ↦ bytes out.1 data out.2) hser
  have hlt : referenceTime fb < 2 ^ 23 := by
    rw [referenceTime, ht, Option.elim_some]
    exact Nat.mod_lt _ (Nat.two_pow_pos 23)
  have hheader : header (baseNumber fb) (UInt16.ofNat fb.packets.size)
      (UInt32.ofNat (referenceTime fb * 256)) fb.feedbackPacketCount.toUInt16 =
        writeBE16 (baseNumber fb) ++ writeBE16 (UInt16.ofNat fb.packets.size) ++
          (writeBE24 (referenceTime fb) ++ [0]) := by
    rw [← writeBE24_of_word hlt, header, upper_toUInt16]
    rfl
  simp only [bytes_write, body, ← referenceTime_eq ht, hheader] at hbytes
  constructor
  · intro h
    obtain ⟨rest, h⟩ := h
    rw [hbytes] at h
    have hhead := (List.append_inj h rfl).1
    have hlast := (List.append_inj (List.append_inj hhead rfl).2 rfl).2
    exact (List.singleton_inj.mp hlast).symm
  · intro hzero
    rw [Complete, hbytes, hzero]
    exact ⟨_, rfl⟩

theorem foldl_step_absent (count : UInt8) (l : List (UInt32 × UInt64)) (s : Scan)
    (h : ∀ e ∈ l, e.2 = 0) : (l.foldl (Scan.step data count) s).len = s.len ∧
      (l.foldl (Scan.step data count) s).deltas = s.deltas := by
  induction l generalizing s with
  | nil => exact ⟨rfl, rfl⟩
  | cons e l ih =>
    rw [List.forall_mem_cons] at h
    rw [List.foldl_cons, step_absent data count s h.1]
    exact ih { s with statuses := s.statuses ++ [notReceived] } h.2

/-- Without an arrival, the reference time and the feedback count are missing, and so are four
bytes of the message. -/
theorem not_complete_absent (hne : fb.packets.isEmpty = false)
    (h : ∀ e ∈ fb.packets.toList, e.2 = 0) : ¬ Complete b data fb := by
  intro hcomplete
  obtain ⟨rest, hbytes⟩ := hcomplete
  obtain ⟨pad, hpad, hser⟩ := serialize_body hne b data
  have hscan : (fb.scan b data).len = 4 ∧ (fb.scan b data).deltas = [] :=
    foldl_step_absent data _ _ (fb.scanInit b data) h
  have hlength := congrArg List.length hbytes
  rw [length_bytes, hser, hscan.1, hscan.2] at hlength
  simp only [body, deltaBytes, List.flatMap_nil, List.nil_append, List.length_append,
    List.length_replicate, List.length_cons, List.length_nil, writeBE16, writeBE24] at hlength
  omega

/-- The header is there exactly for a feedback that has an arrival and the count zero. -/
theorem serialize_complete_iff (hne : fb.packets.isEmpty = false) :
    Complete b data fb ↔ fb.feedbackPacketCount = 0 ∧
      ∃ (s : UInt32) (t : UInt64), fb.packets[s]? = some t ∧ t ≠ 0 := by
  by_cases harrival : ∃ (s : UInt32) (t : UInt64), fb.packets[s]? = some t ∧ t ≠ 0
  · obtain ⟨s, t, hs, ht⟩ := harrival
    have hmem := fb.packets.mem_toList_iff_getElem?_eq_some.mpr hs
    obtain ⟨e, -, -, hhead⟩ := exists_head_arrivals hmem ht
    rw [complete_headed_iff b data hhead]
    exact ⟨fun hzero ↦ ⟨hzero, s, t, hs, ht⟩, And.left⟩
  · refine iff_of_false (not_complete_absent b data hne ?_) (fun h ↦ harrival h.2)
    intro e he
    by_contra h0
    exact harrival ⟨e.1, e.2, fb.packets.mem_toList_iff_getElem?_eq_some.mp he, h0⟩

def received (count : UInt8) (time : UInt64) : TransportCCFeedBack :=
  TransportCCFeedBack.insertPacket { feedbackPacketCount := count } 100 time

theorem received_complete : (received 0 5000100).packets.isEmpty = false ∧
    Complete malloc 0 (received 0 5000100) :=
  ⟨by decide, (serialize_complete_iff malloc 0 (by decide)).mpr
    ⟨rfl, 100, 5000100, by decide, by decide⟩⟩

/-- The count seven is written as zero, and the chunk of a lost packet at offset four. -/
theorem received_incomplete :
    bytes ((received 7 5000100).serialize malloc 0).1 0 12 =
      [0, 100, 0, 1, 0, 0, 78, 0, 0xD0, 0, 32, 0] ∧
    bytes ((received 7 0).serialize malloc 0).1 0 8 = [0, 100, 0, 1, 0xC0, 0, 0, 0] ∧
    ¬ Complete malloc 0 (received 7 5000100) ∧ ¬ Complete malloc 0 (received 7 0) := by
  refine ⟨by decide +kernel, by decide +kernel, ?_, ?_⟩
  · have hhead : (arrivals (received 7 5000100)).head? = some ((5000100 : ℕ) : ℤ) := by decide
    rw [complete_headed_iff malloc 0 hhead]
    decide
  · have hlist : (received 7 0).packets.toList = [(100, 0)] := by decide
    apply not_complete_absent malloc 0 (by decide)
    rw [hlist]
    simp

end Spadia.TransportCC.Header
