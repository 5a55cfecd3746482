import Mathlib.Data.List.Infix
import Spadia.TransportCC.Decoding
import Spadia.TransportCC.Offset

namespace Spadia.TransportCC.ChunkReading

open Foundation TracedRead Read ByteBuffer Wire.ByteOrder Feedback PacketStatus DraftLayout Encoding
open Serialized Decoding Offset

theorem chunkSymbols_eq (chunk : UInt16) : chunkSymbols chunk = symbols chunk.toNat := by
  have hlt := chunk.toNat_lt
  have htype : chunk >>> 15 ≠ 0 ↔ ¬ chunk.toNat < 2 ^ 15 := by
    rw [ne_eq, ← UInt16.toNat_inj, UInt16.toNat_shiftRight, Nat.shiftRight_eq_div_pow]
    simp
  have hsize : chunk >>> 14 &&& 1 ≠ 0 ↔ chunk.toNat / 2 ^ 14 % 2 = 1 := by
    rw [ne_eq, ← UInt16.toNat_inj, UInt16.toNat_and, UInt16.toNat_shiftRight,
      Nat.shiftRight_eq_div_pow]
    simp
  unfold chunkSymbols symbols
  by_cases hrun : chunk.toNat < 2 ^ 15
  · rw [if_neg (fun h ↦ htype.mp h hrun), if_pos hrun, UInt16.toNat_and, UInt16.toNat_shiftRight,
      Nat.shiftRight_eq_div_pow]
    congr 1
    exact Nat.and_two_pow_sub_one_eq_mod chunk.toNat 13
  · rw [if_pos (htype.mpr hrun), if_neg hrun]
    by_cases hone : chunk.toNat < 2 ^ 15 + 2 ^ 14
    · rw [if_neg (by rw [hsize]; omega), if_pos hone]
      apply List.map_congr_left
      intro j _
      rw [Nat.shiftRight_eq_div_pow, Nat.and_one_is_mod]
    · rw [if_pos (by rw [hsize]; omega), if_neg hone]
      apply List.map_congr_left
      intro j _
      rw [Nat.shiftRight_eq_div_pow]
      exact congrArg ofCode (Nat.and_two_pow_sub_one_eq_mod _ 2)

def expansion (chunks : List UInt16) : List PacketStatus :=
  chunks.flatMap fun chunk ↦ symbols chunk.toNat

theorem flatMap_chunkSymbols (chunks : List UInt16) :
    chunks.flatMap chunkSymbols = expansion chunks := by
  unfold expansion
  congr 1
  funext chunk
  exact chunkSymbols_eq chunk

/-- The chunks stand behind the header, have all the statuses that are announced, and the last one
is needed for it. -/
structure Announced (m : Memory) (data : ℕ) (size : ℤ) (count : UInt16) (chunks : List UInt16) :
    Prop where
  stored : Stores m (data + 8) (chunks.flatMap writeBE16)
  fits : 8 + 2 * chunks.length ≤ size
  enough : count.toNat ≤ (expansion chunks).length
  needed : chunks ≠ [] → (expansion chunks.dropLast).length < count.toNat

/-- The chunk loop ends at the offset `stop` after reading the bytes from offset 8 up to it, each
of them once, and its first `count` statuses are `l`. -/
def Decodes (m : Memory) (data : ℕ) (size : ℤ) (count : UInt16) (stop : ℕ)
    (l : List PacketStatus) : Prop :=
  ∃ n, ∀ rounds, n ≤ rounds → ∃ statuses len,
    (chunkLoop data size count rounds [] 8).value m = .done statuses len ∧
      (chunkLoop data size count rounds [] 8).trace m = List.range' (data + 8) (stop - 8) ∧
      statuses.take count.toNat = l ∧ len.toNat = stop

variable {m : Memory} {data : ℕ} {size : ℤ} {count : UInt16} {chunks : List UInt16}

theorem Announced.length_take_lt (h : Announced m data size count chunks) {k : ℕ}
    (hk : k < chunks.length) : (expansion (chunks.take k)).length < count.toNat := by
  have hne : chunks ≠ [] := List.ne_nil_of_length_pos (by omega)
  have htake : chunks.take k <+: chunks.dropLast := by
    rw [List.dropLast_eq_take]
    exact List.take_prefix_take_left (by omega)
  have hle : (expansion (chunks.take k)).length ≤ (expansion chunks.dropLast).length :=
    (htake.flatMap fun chunk : UInt16 ↦ symbols chunk.toNat).length_le
  exact hle.trans_lt (h.needed hne)

theorem Announced.decodes (h : Announced m data size count chunks)
    (hlength : 8 + 2 * chunks.length < 2 ^ 32) :
    Decodes m data size count (8 + 2 * chunks.length) ((expansion chunks).take count.toNat) := by
  refine ⟨chunks.length, fun rounds hrounds ↦ ?_⟩
  obtain ⟨rounds, rfl⟩ := Nat.exists_eq_add_of_le' hrounds
  have hlen : (8 : UInt32).toNat = 8 := rfl
  have hstored : Stores m (data + (8 : UInt32).toNat) (chunks.flatMap writeBE16) := h.stored
  obtain ⟨hvalue, htrace⟩ := chunkLoop_append size count rounds chunks [] hstored hlength.le h.fits
    fun k hk ↦ by
      rw [flatMap_chunkSymbols, List.length_nil, Nat.zero_add]
      exact h.length_take_lt hk
  rw [List.nil_append, flatMap_chunkSymbols, chunkLoop_done rounds h.enough] at hvalue htrace
  refine ⟨_, _, hvalue, ?_, rfl, ?_⟩
  · rw [htrace, hlen, trace_pure, List.append_nil, Nat.add_sub_cancel_left]
  · rw [UInt32.toNat_add, UInt32.toNat_ofNat', hlen]
    omega

theorem Decodes.lt {stop : ℕ} {l : List PacketStatus} (h : Decodes m data size count stop l) :
    stop < 2 ^ 32 ∧ l.length ≤ count.toNat := by
  obtain ⟨n, h⟩ := h
  obtain ⟨statuses, len, -, -, rfl, rfl⟩ := h n (le_refl n)
  exact ⟨len.toNat_lt, List.length_take_le _ _⟩

section Serialize

def chunkWords (l : List PacketStatus) : List UInt16 :=
  if l = [] then []
  else chunkWord (l.take 7) :: chunkWords (l.drop 7)
termination_by l.length
decreasing_by
  have h := List.length_pos_iff.mpr (by assumption : l ≠ [])
  simp only [List.length_drop]
  omega

theorem flatMap_chunkWords (l : List PacketStatus) :
    (chunkWords l).flatMap writeBE16 = chunkBytes l := by
  induction l using chunkWords.induct with
  | case1 => simp [chunkWords, chunkBytes]
  | case2 l h ih => rw [chunkWords, chunkBytes, if_neg h, if_neg h, List.flatMap_cons, ih]

theorem length_flatMap_writeBE16 (chunks : List UInt16) :
    (chunks.flatMap writeBE16).length = 2 * chunks.length := by
  induction chunks with
  | nil => rfl
  | cons chunk chunks ih =>
    rw [List.flatMap_cons, List.length_append, length_writeBE16, ih, List.length_cons]
    omega

theorem length_chunkWords (l : List PacketStatus) :
    (chunkWords l).length = (l.length + 6) / 7 := by
  have hbytes := length_chunkBytes l
  rw [← flatMap_chunkWords, length_flatMap_writeBE16] at hbytes
  omega

theorem length_symbols_chunkWords {l : List PacketStatus} {chunk : UInt16}
    (h : chunk ∈ chunkWords l) : (symbols chunk.toNat).length = 7 := by
  induction l using chunkWords.induct with
  | case1 => simp [chunkWords] at h
  | case2 l hne ih =>
    rw [chunkWords, if_neg hne, List.mem_cons] at h
    obtain rfl | h := h
    · have hle : (l.take 7).length ≤ 7 := List.length_take_le _ _
      rw [symbols_chunkWord hle, List.length_append, List.length_replicate]
      exact Nat.add_sub_cancel' hle
    · exact ih h

theorem length_expansion {chunks : List UInt16}
    (h : ∀ chunk ∈ chunks, (symbols chunk.toNat).length = 7) :
    (expansion chunks).length = 7 * chunks.length := by
  induction chunks with
  | nil => rfl
  | cons chunk chunks ih =>
    rw [List.forall_mem_cons] at h
    have hcons : expansion (chunk :: chunks) = symbols chunk.toNat ++ expansion chunks :=
      List.flatMap_cons
    rw [hcons, List.length_append, h.1, ih h.2, List.length_cons]
    omega

theorem expansion_chunkWords (l : List PacketStatus) : l <+: expansion (chunkWords l) := by
  induction l using chunkWords.induct with
  | case1 => exact List.nil_prefix
  | case2 l h ih =>
    have hle : (l.take 7).length ≤ 7 := List.length_take_le _ _
    rw [chunkWords, if_neg h, expansion, List.flatMap_cons, symbols_chunkWord hle]
    rcases Nat.lt_or_ge l.length 7 with hlt | hge
    · rw [List.take_of_length_le hlt.le, List.append_assoc]
      exact List.prefix_append _ _
    · have hfill : 7 - (l.take 7).length = 0 := by
        rw [List.length_take]
        omega
      rw [hfill, List.replicate_zero, List.append_nil]
      conv_lhs => rw [← List.take_append_drop 7 l]
      exact (List.prefix_append_right_inj _).mpr ih

theorem announced_chunkWords {l : List PacketStatus} (hs : Stores m (data + 8) (chunkBytes l))
    (hfits : 8 + (chunkBytes l).length ≤ size) (hcount : count.toNat = l.length) :
    Announced m data size count (chunkWords l) where
  stored := by rwa [flatMap_chunkWords]
  fits := by
    rw [length_chunkBytes] at hfits
    rw [length_chunkWords]
    omega
  enough := by
    rw [hcount]
    exact (expansion_chunkWords l).length_le
  needed hne := by
    have hlength := length_chunkWords l
    have hpos := List.length_pos_iff.mpr hne
    rw [length_expansion fun chunk hc ↦ length_symbols_chunkWords (List.mem_of_mem_dropLast hc),
      List.length_dropLast]
    omega

theorem decodes_chunkBytes_iff {l : List PacketStatus} (hs : Stores m (data + 8) (chunkBytes l))
    (hfits : 8 + (chunkBytes l).length ≤ size) :
    Decodes m data size (UInt16.ofNat l.length) (8 + (chunkBytes l).length) l ↔
      l.length < 2 ^ 16 := by
  constructor
  · intro h
    exact h.lt.2.trans_lt (UInt16.toNat_lt _)
  · intro hlt
    have hcount : (UInt16.ofNat l.length).toNat = l.length := UInt16.toNat_ofNat_of_lt' hlt
    have hlength := length_chunkWords l
    have h := (announced_chunkWords hs hfits hcount).decodes (by omega)
    rw [hcount, (List.prefix_iff_eq_take.mp (expansion_chunkWords l)).symm, hlength] at h
    rwa [length_chunkBytes]

theorem decodes_writeChunks_iff (l : List PacketStatus) (b : Buffer)
    (hs : Stores m (data + 8)
      (bytes (writeChunks l data 0 b 8).1 (data + 8) ((writeChunks l data 0 b 8).2 - 8)))
    (hfits : (writeChunks l data 0 b 8).2 ≤ size) :
    Decodes m data size (UInt16.ofNat l.length) (writeChunks l data 0 b 8).2 l ↔
      l.length < 2 ^ 16 := by
  rw [writeChunks_eq, List.drop_zero] at hs hfits ⊢
  rw [Nat.add_sub_cancel_left, bytes_write] at hs
  exact decodes_chunkBytes_iff hs (by exact_mod_cast hfits)

/-- With an arrival, the chunks of a message start behind eight bytes, and `Parse` comes to the
deltas where `Serialize` has put them. -/
theorem decodes_serialize_iff {fb : TransportCCFeedBack} {b : Buffer}
    (harrival : ∃ (s : UInt32) (t : UInt64), fb.packets[s]? = some t ∧ t ≠ 0)
    (hs : Stores m data (bytes (fb.serialize b data).1 data (fb.serialize b data).2))
    (hfits : (fb.serialize b data).2 ≤ size) :
    let scan := fb.scan b data
    Decodes m data size (statusCount m data)
      (writeChunks scan.statuses data 0 scan.buffer scan.len).2 scan.statuses ↔
        fb.packets.size < 2 ^ 16 := by
  obtain ⟨s, t, hget, ht⟩ := harrival
  have hmem := fb.packets.mem_toList_iff_getElem?_eq_some.mpr hget
  obtain ⟨first, -, -, hhead⟩ := exists_head_arrivals hmem ht
  obtain ⟨pad, -, hser⟩ := serialize_headed hhead b data
  have hlen : (fb.scan b data).len = 8 := (foldl_output data fb.feedbackPacketCount
    fb.packets.toList (s := fb.scanInit b data) rfl hhead).2
  have hlength := length_scan_statuses fb b data
  rw [hser, bytes_write, stores_append, body, stores_append] at hs
  obtain ⟨hheader, hchunks, -⟩ := hs
  have hcount : statusCount m data = UInt16.ofNat fb.packets.size := by
    simp only [header, writeBE16, List.cons_append, List.nil_append, stores_cons, Nat.add_assoc,
      Nat.reduceAdd] at hheader
    rw [statusCount, hheader.2.2.1, hheader.2.2.2.1, be16_writeBE16]
  simp only [hser, header, body, List.length_append, length_writeBE16, List.length_cons,
    List.length_nil] at hfits
  intro scan
  rw [hcount, ← hlength, writeChunks_eq, List.drop_zero, hlen]
  exact decodes_chunkBytes_iff hchunks (by omega)

/-- Every list of chunks up to the last offset of 32 bits is decoded as the draft says, and so are
the chunks that `Serialize` writes for as many statuses as the count of 16 bits can tell. -/
theorem chunks_decoded_iff (m : Memory) (data : ℕ) (size : ℤ) :
    (∀ count chunks, Announced m data size count chunks →
      (Decodes m data size count (8 + 2 * chunks.length) ((expansion chunks).take count.toNat) ↔
        chunks.length < 2 ^ 31 - 4)) ∧
    (∀ (l : List PacketStatus) (b : Buffer),
      let out := writeChunks l data 0 b 8
      Stores m (data + 8) (bytes out.1 (data + 8) (out.2 - 8)) → out.2 ≤ size →
        (Decodes m data size (UInt16.ofNat l.length) out.2 l ↔ l.length < 2 ^ 16)) ∧
    (∀ (fb : TransportCCFeedBack) (b : Buffer),
      (∃ (s : UInt32) (t : UInt64), fb.packets[s]? = some t ∧ t ≠ 0) →
      let out := fb.serialize b data
      let scan := fb.scan b data
      Stores m data (bytes out.1 data out.2) → out.2 ≤ size →
        (Decodes m data size (statusCount m data)
          (writeChunks scan.statuses data 0 scan.buffer scan.len).2 scan.statuses ↔
            fb.packets.size < 2 ^ 16)) := by
  refine ⟨fun count chunks h ↦ ⟨fun hd ↦ ?_, fun hlength ↦ h.decodes (by omega)⟩,
    fun l b ↦ decodes_writeChunks_iff l b, fun fb b ↦ decodes_serialize_iff⟩
  have hlt := hd.lt.1
  omega

end Serialize

theorem stores_memory (b : Buffer) (data n : ℕ) : Stores (memory b) data (bytes b data n) := by
  simp [Stores, memory, bytes, List.range'_eq_map_range]

def mixed : List UInt16 := [0, 0x2003, 0x9555, 0xE400]

def mixedMessage : Memory := ofList [0, 1, 0, 20, 0, 0, 0, 0, 0, 0, 0x20, 3, 0x95, 0x55, 0xE4, 0]

def three : List PacketStatus := [smallDelta, notReceived, largeOrNegativeDelta]

def received : TransportCCFeedBack :=
  TransportCCFeedBack.insertPacket { feedbackPacketCount := 0 } 100 5000100

theorem chunks_decoded_mixed :
    (Announced mixedMessage 0 16 20 mixed ∧
      Decodes mixedMessage 0 16 20 16 ((expansion mixed).take 20)) ∧
    Decodes (memory (writeChunks three 0 0 malloc 8).1) 0 (writeChunks three 0 0 malloc 8).2 3
      (writeChunks three 0 0 malloc 8).2 three ∧
    Decodes (memory (received.serialize malloc 0).1) 0 (received.serialize malloc 0).2
      (statusCount (memory (received.serialize malloc 0).1) 0)
      (writeChunks (received.scan malloc 0).statuses 0 0 (received.scan malloc 0).buffer
        (received.scan malloc 0).len).2 (received.scan malloc 0).statuses := by
  have hmixed : Announced mixedMessage 0 16 20 mixed :=
    ⟨by decide, by decide, by decide, fun _ ↦ by decide⟩
  refine ⟨⟨hmixed, ?_⟩, ?_, ?_⟩
  · exact ((chunks_decoded_iff mixedMessage 0 16).1 20 mixed hmixed).mpr (by decide)
  · exact ((chunks_decoded_iff _ 0 _).2.1 three malloc (stores_memory _ _ _) (le_refl _)).mpr
      (by decide)
  · exact ((chunks_decoded_iff _ 0 _).2.2 received malloc ⟨100, 5000100, by decide, by decide⟩
      (stores_memory _ _ _) (le_refl _)).mpr (by decide)

section Wrap

/-- One status is announced. Behind `2 ^ 31 - 4` runs of length zero stands a run of length one. -/
def distant : Memory := fun i ↦
  if i = 3 then 1 else if i = 2 ^ 32 then 0x20 else if i = 2 ^ 32 + 1 then 1 else 0

theorem distant_zero {i : ℕ} (h : 8 ≤ i) (hlt : i < 2 ^ 32) : distant i = 0 := by
  unfold distant
  rw [if_neg (by omega), if_neg (by omega), if_neg (by omega)]

variable {n : ℕ}

theorem expansion_distant : expansion (List.replicate n 0 ++ [0x2001]) = [smallDelta] := by
  rw [← flatMap_chunkSymbols, List.flatMap_append, chunkSymbols_zeros fun _ hc ↦ hc]
  decide

theorem announced_distant (hn : n = 2 ^ 31 - 4) :
    Announced distant 0 (2 ^ 32 + 2) 1 (List.replicate n 0 ++ [0x2001]) where
  stored := by
    rw [List.flatMap_append, stores_append]
    refine ⟨stores_zeros fun j hj hj' ↦ distant_zero (by omega) (by omega), ?_⟩
    have hend : 0 + 8 + 2 * n = 2 ^ 32 := by omega
    rw [length_flatMap_writeBE16, List.length_replicate, hend]
    decide
  fits := by
    rw [List.length_append, List.length_replicate, List.length_singleton]
    omega
  enough := by
    rw [expansion_distant]
    decide
  needed _ := by
    rw [List.dropLast_concat, ← flatMap_chunkSymbols, chunkSymbols_zeros fun _ hc ↦ hc]
    decide

/-- The offset comes back to the header, which reads as a run of length zero and as a run of one
lost packet. -/
theorem chunkLoop_distant (hn : n = 2 ^ 31 - 4) :
    (chunkLoop 0 (2 ^ 32 + 2) 1 (2 + n) [] 8).value distant = .done [notReceived] 4 := by
  have hlen : (8 : UInt32).toNat = 8 := rfl
  have hend : 8 + UInt32.ofNat (2 * n) = 0 := by
    rw [hn]
    decide
  have hzero (j : ℕ) (hj : 0 + (8 : UInt32).toNat ≤ j) (hj' : j < 0 + (8 : UInt32).toNat + 2 * n) :
      distant j = 0 := distant_zero (by omega) (by omega)
  have hskip : ((8 : UInt32).toNat : ℤ) + 2 * n ≤ 2 ^ 32 + 2 := by omega
  rw [(chunkLoop_skip 2 n hzero (by omega) hskip (by decide)).1, hend]
  decide

theorem not_decodes_distant (hn : n = 2 ^ 31 - 4) :
    ¬ Decodes distant 0 (2 ^ 32 + 2) 1 (8 + 2 * (List.replicate n (0 : UInt16) ++ [0x2001]).length)
      ((expansion (List.replicate n 0 ++ [0x2001])).take (1 : UInt16).toNat) := by
  intro h
  have hlt := h.lt.1
  rw [List.length_append, List.length_replicate] at hlt
  omega

/-- Neither are chunks decoded across the last offset of 32 bits, nor more statuses than 16 bits
count. -/
theorem distant_not_decoded :
    (∃ n, n = 2 ^ 31 - 4 ∧
      Announced distant 0 (2 ^ 32 + 2) 1 (List.replicate n 0 ++ [0x2001]) ∧
      expansion (List.replicate n 0 ++ [0x2001]) = [smallDelta] ∧
      (chunkLoop 0 (2 ^ 32 + 2) 1 (2 + n) [] 8).value distant = .done [notReceived] 4 ∧
      ¬ Decodes distant 0 (2 ^ 32 + 2) 1
        (8 + 2 * (List.replicate n (0 : UInt16) ++ [0x2001]).length)
        ((expansion (List.replicate n 0 ++ [0x2001])).take (1 : UInt16).toNat)) ∧
    ∃ l : List PacketStatus, l = List.replicate 65536 smallDelta ∧
      ¬ Decodes (memory (writeChunks l 0 0 malloc 8).1) 0 (writeChunks l 0 0 malloc 8).2
        (UInt16.ofNat l.length) (writeChunks l 0 0 malloc 8).2 l := by
  refine ⟨⟨_, rfl, announced_distant rfl, expansion_distant, chunkLoop_distant rfl,
    not_decodes_distant rfl⟩, _, rfl, ?_⟩
  rw [decodes_writeChunks_iff _ malloc (stores_memory _ _ _) (le_refl _), List.length_replicate]
  decide

end Wrap

end Spadia.TransportCC.ChunkReading
