import Spadia.TransportCC.Feedback

namespace Spadia.TransportCC.Offset

open Foundation.TracedRead Read Wire.ByteOrder Feedback

/-- How far the chunk loop has come: it may go on, has come to the end of the buffer, or has
found the statuses. -/
inductive ChunkProgress
  | running
  | cutOff
  | done (statuses : List PacketStatus) (len : UInt32)
deriving DecidableEq, Repr

/-- The chunk loop of `Parse` with its 32-bit offset, for at most so many rounds. -/
def chunkLoop (data : ℕ) (size : ℤ) (count : UInt16) :
    ℕ → List PacketStatus → UInt32 → Read ChunkProgress
  | 0, statuses, len =>
    if statuses.length < count.toNat then return .running else return .done statuses len
  | rounds + 1, statuses, len =>
    if statuses.length < count.toNat then
      -- The sum has 32 bits, the size has 64.
      if (len + 2).toNat > size then return .cutOff
      else do
        let chunk ← readBE16 (data + len.toNat)
        chunkLoop data size count rounds (statuses ++ chunkSymbols chunk) (len + 2)
    else return .done statuses len

/-- The delta loop of `Parse` at index `i`; `none` where there is no status of that index. -/
def deltaLoop (data : ℕ) (size : ℤ) (base : UInt32) (count : ℕ) (statuses : List PacketStatus)
    (i : ℕ) (len : UInt32) (time : UInt64) (packets : Std.ExtTreeMap UInt32 UInt64) :
    Read (Option (Std.ExtTreeMap UInt32 UInt64)) :=
  if i < count then
    match statuses[i]? with
    | none => return none
    | some .notReceived =>
      deltaLoop data size base count statuses (i + 1) len time
        (packets.insert (base + UInt32.ofNat i) 0)
    | some .smallDelta =>
      if (len + 1).toNat > size then return some packets
      else do
        let delta ← readBE8 (data + len.toNat)
        let time := time + UInt64.ofNat (delta.toNat * 250)
        deltaLoop data size base count statuses (i + 1) (len + 1) time
          (packets.insert (base + UInt32.ofNat i) time)
    | some .largeOrNegativeDelta =>
      if (len + 2).toNat > size then return some packets
      else do
        let aux ← readShort (data + len.toNat)
        let time := time + UInt64.ofInt (aux * 250)
        deltaLoop data size base count statuses (i + 1) (len + 2) time
          (packets.insert (base + UInt32.ofNat i) time)
    | some .reserved => deltaLoop data size base count statuses (i + 1) len time packets
  else return some packets
termination_by count - i

inductive Progress
  | running
  | badIndex
  | returned (fb : TransportCCFeedBack)

def finish (fb : TransportCCFeedBack) (data : ℕ) (size : ℤ) (base : UInt32) (count : UInt16) :
    ChunkProgress → Read Progress
  | .running => return .running
  | .cutOff => return .returned fb
  | .done statuses len => do
    let time := (fb.referenceTime * 64000).toUInt64
    let packets ← deltaLoop data size base count.toNat statuses 0 len time fb.packets
    match packets with
    | none => return .badIndex
    | some packets => return .returned { fb with packets }

/-- `TransportCCFeedBack::Parse`, whose chunk loop may run so many rounds. -/
def parse (rounds : ℕ) (fb : TransportCCFeedBack) (data : ℕ) (size : ℤ) : Read Progress := do
  if size < 8 then
    return .returned fb
  let baseSeqNumber ← readBE32 data
  let packetStatusCount ← readBE16 (data + 2)
  let word ← readBE32 (data + 4)
  let feedbackPacketCount ← readBE8 (data + 7)
  let referenceTime := word &&& 0xFFFFFF00
  let chunks ← chunkLoop data size packetStatusCount rounds [] 8
  finish { fb with referenceTime, feedbackPacketCount } data size baseSeqNumber packetStatusCount
    chunks

variable {m : Memory} {data : ℕ} {size : ℤ} {count : UInt16}

theorem toNat_add_of_le {len k : UInt32} (hlen : len.toNat ≤ size) (hsize : size ≤ 2 ^ 32 - 3)
    (hk : k.toNat ≤ 2) : (len + k).toNat = len.toNat + k.toNat := by
  rw [UInt32.toNat_add]
  exact Nat.mod_eq_of_lt (by omega)

theorem inside_readShort {n : ℕ} (data : ℕ) : Inside n (readShort data) m ↔ data + 1 < n := by
  simp [readShort]

section Steps

variable {statuses : List PacketStatus} {len : UInt32} (rounds : ℕ)

theorem chunkLoop_cutOff (hcount : statuses.length < count.toNat)
    (hend : (len + 2).toNat > size) :
    chunkLoop data size count (rounds + 1) statuses len = pure .cutOff := by
  rw [chunkLoop, if_pos hcount, if_pos hend]

theorem chunkLoop_next (hcount : statuses.length < count.toNat)
    (hgo : ¬ (len + 2).toNat > size) :
    chunkLoop data size count (rounds + 1) statuses len = readBE16 (data + len.toNat) >>=
      fun chunk ↦ chunkLoop data size count rounds (statuses ++ chunkSymbols chunk) (len + 2) := by
  rw [chunkLoop, if_pos hcount, if_neg hgo]

theorem chunkLoop_done (hcount : count.toNat ≤ statuses.length) :
    chunkLoop data size count rounds statuses len = pure (.done statuses len) := by
  cases rounds with
  | zero => rw [chunkLoop, if_neg (Nat.not_lt.mpr hcount)]
  | succ rounds => rw [chunkLoop, if_neg (Nat.not_lt.mpr hcount)]

end Steps

theorem chunkLoop_append (size : ℤ) (count : UInt16) (rounds : ℕ) (chunks : List UInt16)
    (statuses : List PacketStatus) {len : UInt32}
    (hs : Stores m (data + len.toNat) (chunks.flatMap writeBE16))
    (haddr : len.toNat + 2 * chunks.length ≤ 2 ^ 32)
    (hsize : len.toNat + 2 * chunks.length ≤ size)
    (hcount : ∀ k < chunks.length,
      statuses.length + ((chunks.take k).flatMap chunkSymbols).length < count.toNat) :
    (chunkLoop data size count (rounds + chunks.length) statuses len).value m =
        (chunkLoop data size count rounds (statuses ++ chunks.flatMap chunkSymbols)
          (len + UInt32.ofNat (2 * chunks.length))).value m ∧
      (chunkLoop data size count (rounds + chunks.length) statuses len).trace m =
        List.range' (data + len.toNat) (2 * chunks.length) ++
          (chunkLoop data size count rounds (statuses ++ chunks.flatMap chunkSymbols)
            (len + UInt32.ofNat (2 * chunks.length))).trace m := by
  induction chunks generalizing statuses len with
  | nil => simp
  | cons c chunks ih =>
    rw [List.length_cons] at haddr hsize
    rw [List.flatMap_cons, stores_append, length_writeBE16, writeBE16, stores_cons,
      stores_cons] at hs
    obtain ⟨⟨hhigh, hlow, -⟩, hrest⟩ := hs
    have hstatus : statuses.length < count.toNat := by simpa using hcount 0 (by simp)
    have hsum : (len + 2).toNat = (len.toNat + 2) % 2 ^ 32 := UInt32.toNat_add len 2
    have hgo : ¬ ((len + 2).toNat : ℤ) > size := by omega
    -- Only behind the last chunk may the offset be back at zero.
    have hnext : chunks = [] ∨ (len + 2).toNat = len.toNat + 2 := by
      by_cases hnil : chunks = []
      · exact .inl hnil
      · have hpos := List.length_pos_iff.mpr hnil
        exact .inr (by omega)
    have hstores : Stores m (data + (len + 2).toNat) (chunks.flatMap writeBE16) := by
      obtain rfl | hnext := hnext
      · exact stores_nil _ _
      · rwa [hnext, ← Nat.add_assoc]
    have hrange : List.range' (data + (len + 2).toNat) (2 * chunks.length) =
        List.range' (data + len.toNat + 2) (2 * chunks.length) := by
      obtain rfl | hnext := hnext
      · rfl
      · rw [hnext, ← Nat.add_assoc]
    have hlen : len + 2 + UInt32.ofNat (2 * chunks.length) =
        len + UInt32.ofNat (2 * (chunks.length + 1)) := by
      rw [Nat.mul_succ, UInt32.ofNat_add, UInt32.add_assoc, UInt32.add_comm 2]
      rfl
    obtain ⟨hvalue, htrace⟩ := ih (statuses ++ chunkSymbols c) hstores (by omega) (by omega)
      (fun k hk ↦ by
        have h := hcount (k + 1) (by simpa using hk)
        simp only [List.take_succ_cons, List.flatMap_cons, List.length_append] at h ⊢
        omega)
    rw [List.length_cons, ← Nat.add_assoc, chunkLoop_next _ hstatus hgo, value_bind, trace_bind,
      value_readBE16, trace_readBE16, hhigh, hlow, be16_writeBE16, hvalue, htrace, hrange, hlen,
      List.flatMap_cons, List.append_assoc]
    refine ⟨rfl, ?_⟩
    rw [Nat.mul_succ, List.range'_succ, List.range'_succ]
    rfl

theorem parse_short (rounds : ℕ) (fb : TransportCCFeedBack) (h : size < 8) :
    parse rounds fb data size = pure (.returned fb) := if_pos h

def headed (fb : TransportCCFeedBack) (m : Memory) (data : ℕ) : TransportCCFeedBack :=
  { fb with
    referenceTime := be32 (m (data + 4)) (m (data + 5)) (m (data + 6)) (m (data + 7)) &&& 0xFFFFFF00
    feedbackPacketCount := m (data + 7) }

def statusCount (m : Memory) (data : ℕ) : UInt16 := be16 (m (data + 2)) (m (data + 3))

def parseFrom (rounds : ℕ) (fb : TransportCCFeedBack) (m : Memory) (data : ℕ) (size : ℤ) :
    Read Progress := do
  let chunks ← chunkLoop data size (statusCount m data) rounds [] 8
  finish (headed fb m data) data size
    (be32 (m data) (m (data + 1)) (m (data + 2)) (m (data + 3))) (statusCount m data) chunks

theorem parse_value (rounds : ℕ) (fb : TransportCCFeedBack) (h : ¬ size < 8) :
    (parse rounds fb data size).value m = (parseFrom rounds fb m data size).value m := by
  simp only [parse, h, if_false]
  rfl

theorem parse_inside (rounds : ℕ) (fb : TransportCCFeedBack) (h : ¬ size < 8) {n : ℕ}
    (hn : data + 8 ≤ n) :
    Inside n (parse rounds fb data size) m ↔ Inside n (parseFrom rounds fb m data size) m := by
  simp only [parse, h, if_false, inside_bind, inside_readBE32, inside_readBE16, inside_readBE8]
  constructor
  · intro hinside
    exact (inside_bind _ _).mpr hinside.2.2.2.2
  · intro hinside
    exact ⟨by omega, by omega, by omega, by omega, (inside_bind _ _).mp hinside⟩

section Tight

variable (data count)

theorem chunkLoop_inside (hsize : size ≤ 2 ^ 32 - 3) (rounds : ℕ) (statuses : List PacketStatus)
    {len : UInt32} (hlen : len.toNat ≤ size) :
    Inside (data + size.toNat) (chunkLoop data size count rounds statuses len) m ∧
      ∀ l n, (chunkLoop data size count rounds statuses len).value m = .done l n →
        n.toNat ≤ size ∧ count.toNat ≤ l.length := by
  induction rounds generalizing statuses len with
  | zero =>
    by_cases hcount : statuses.length < count.toNat
    · rw [chunkLoop, if_pos hcount]
      simp
    · rw [chunkLoop_done 0 (Nat.le_of_not_lt hcount)]
      refine ⟨inside_pure _, fun l n h ↦ ?_⟩
      cases h
      exact ⟨hlen, Nat.le_of_not_lt hcount⟩
  | succ rounds ih =>
    by_cases hcount : statuses.length < count.toNat
    · by_cases hend : (len + 2).toNat > size
      · rw [chunkLoop_cutOff rounds hcount hend]
        simp
      · have hnext : (len + 2).toNat = len.toNat + 2 := toNat_add_of_le hlen hsize (by decide)
        have hfits : ((len + 2).toNat : ℤ) ≤ size := not_lt.mp hend
        obtain ⟨hinside, hdone⟩ := ih
          (statuses ++ chunkSymbols (be16 (m (data + len.toNat)) (m (data + len.toNat + 1)))) hfits
        rw [chunkLoop_next rounds hcount hend, inside_bind, inside_readBE16, value_bind,
          value_readBE16]
        exact ⟨⟨by omega, hinside⟩, hdone⟩
    · rw [chunkLoop_done (rounds + 1) (Nat.le_of_not_lt hcount)]
      refine ⟨inside_pure _, fun l n h ↦ ?_⟩
      cases h
      exact ⟨hlen, Nat.le_of_not_lt hcount⟩

theorem chunkLoop_ends (hsize : size ≤ 2 ^ 32 - 3) {rounds : ℕ} (statuses : List PacketStatus)
    {len : UInt32} (hlen : len.toNat ≤ size) (hrounds : size - len.toNat < rounds) :
    (chunkLoop data size count rounds statuses len).value m ≠ .running := by
  induction rounds generalizing statuses len with
  | zero => omega
  | succ rounds ih =>
    by_cases hcount : statuses.length < count.toNat
    · by_cases hend : (len + 2).toNat > size
      · rw [chunkLoop_cutOff rounds hcount hend]
        simp
      · have hnext : (len + 2).toNat = len.toNat + 2 := toNat_add_of_le hlen hsize (by decide)
        rw [chunkLoop_next rounds hcount hend, value_bind]
        exact ih _ (not_lt.mp hend) (by omega)
    · rw [chunkLoop_done (rounds + 1) (Nat.le_of_not_lt hcount)]
      simp

theorem deltaLoop_inside (hsize : size ≤ 2 ^ 32 - 3) (base : UInt32) {count : ℕ}
    {statuses : List PacketStatus} (hcount : count ≤ statuses.length) (i : ℕ) (len : UInt32)
    (time : UInt64) (packets : Std.ExtTreeMap UInt32 UInt64) (hlen : len.toNat ≤ size) :
    Inside (data + size.toNat) (deltaLoop data size base count statuses i len time packets) m ∧
      ((deltaLoop data size base count statuses i len time packets).value m).isSome := by
  induction i, len, time, packets using deltaLoop.induct size base count statuses with
  | case1 i len time packets hi hs =>
    have hnone := List.getElem?_eq_none_iff.mp hs
    omega
  | case2 i len time packets hi hs ih =>
    rw [deltaLoop, if_pos hi, hs]
    exact ih hlen
  | case3 i len time packets hi hs hend =>
    rw [deltaLoop, if_pos hi, hs]
    simp only [hend, if_true]
    exact ⟨inside_pure _, rfl⟩
  | case4 i len time packets hi hs hend ih =>
    have hnext : (len + 1).toNat = len.toNat + 1 := toNat_add_of_le hlen hsize (by decide)
    obtain ⟨hinside, hsome⟩ := ih (m (data + len.toNat)) (not_lt.mp hend)
    rw [deltaLoop, if_pos hi, hs]
    simp only [hend, if_false, inside_bind, inside_readBE8, value_bind, value_readBE8]
    exact ⟨⟨by omega, hinside⟩, hsome⟩
  | case5 i len time packets hi hs hend =>
    rw [deltaLoop, if_pos hi, hs]
    simp only [hend, if_true]
    exact ⟨inside_pure _, rfl⟩
  | case6 i len time packets hi hs hend ih =>
    have hnext : (len + 2).toNat = len.toNat + 2 := toNat_add_of_le hlen hsize (by decide)
    obtain ⟨hinside, hsome⟩ := ih ((readShort (data + len.toNat)).value m) (not_lt.mp hend)
    rw [deltaLoop, if_pos hi, hs]
    simp only [hend, if_false, inside_bind, inside_readShort, value_bind]
    exact ⟨⟨by omega, hinside⟩, hsome⟩
  | case7 i len time packets hi hs ih =>
    rw [deltaLoop, if_pos hi, hs]
    exact ih hlen
  | case8 i len time packets hi =>
    rw [deltaLoop, if_neg hi]
    exact ⟨inside_pure _, rfl⟩

theorem finish_tight (hsize : size ≤ 2 ^ 32 - 3) (fb : TransportCCFeedBack) (base : UInt32)
    {chunks : ChunkProgress}
    (hdone : ∀ l n, chunks = .done l n → n.toNat ≤ size ∧ count.toNat ≤ l.length) :
    Inside (data + size.toNat) (finish fb data size base count chunks) m ∧
      (finish fb data size base count chunks).value m ≠ .badIndex ∧
      (chunks ≠ .running → (finish fb data size base count chunks).value m ≠ .running) := by
  cases chunks with
  | running => simp [finish]
  | cutOff => simp [finish]
  | done l n =>
    obtain ⟨hlen, hcount⟩ := hdone l n rfl
    obtain ⟨hinside, hsome⟩ := deltaLoop_inside (m := m) data hsize base hcount 0 n
      (fb.referenceTime * 64000).toUInt64 fb.packets hlen
    obtain ⟨packets, hpackets⟩ := Option.isSome_iff_exists.mp hsome
    simp only [finish, inside_bind, value_bind, hpackets, inside_pure, value_pure]
    exact ⟨⟨hinside, trivial⟩, by simp, by simp⟩

/-- `Parse` comes to an end, reads only the `size` bytes of the buffer, and uses only indices that
`statuses` has. -/
structure MemoryTight (fb : TransportCCFeedBack) (m : Memory) (size : ℤ) : Prop where
  ends : ∃ rounds, (parse rounds fb 0 size).value m ≠ .running
  inside : ∀ rounds, Inside size.toNat (parse rounds fb 0 size) m
  indexed : ∀ rounds, (parse rounds fb 0 size).value m ≠ .badIndex

theorem memoryTight (fb : TransportCCFeedBack) (m : Memory) {size : ℤ}
    (hsize : size ≤ 2 ^ 32 - 3) : MemoryTight fb m size := by
  by_cases h8 : size < 8
  · have hshort (rounds : ℕ) : parse rounds fb 0 size = pure (.returned fb) :=
      parse_short rounds fb h8
    refine ⟨⟨0, ?_⟩, fun rounds ↦ ?_, fun rounds ↦ ?_⟩
    · rw [hshort]
      simp
    · rw [hshort]
      exact inside_pure _
    · rw [hshort]
      simp
  · have hlen : ((8 : UInt32).toNat : ℤ) ≤ size := not_lt.mp h8
    have hchunks (rounds : ℕ) := chunkLoop_inside (m := m) 0 (statusCount m 0) hsize rounds [] hlen
    have hfinish (rounds : ℕ) := finish_tight (m := m) 0 (statusCount m 0) hsize (headed fb m 0)
      (be32 (m 0) (m 1) (m 2) (m 3)) (hchunks rounds).2
    refine ⟨⟨size.toNat, ?_⟩, fun rounds ↦ ?_, fun rounds ↦ ?_⟩
    · rw [parse_value _ fb h8]
      exact (hfinish _).2.2 (chunkLoop_ends 0 _ hsize [] hlen (by
        have height : (8 : UInt32).toNat = 8 := rfl
        omega))
    · rw [parse_inside rounds fb h8 (by omega), parseFrom, inside_bind, ← Nat.zero_add size.toNat]
      exact ⟨(hchunks rounds).1, (hfinish rounds).1⟩
    · rw [parse_value rounds fb h8]
      exact (hfinish rounds).2.1

end Tight

section Agreement

variable (data count)

def ChunkProgress.found : ChunkProgress → Option (List PacketStatus × ℕ)
  | .running | .cutOff => none
  | .done statuses len => some (statuses, len.toNat)

theorem chunkLoop_found (hsize : size ≤ 2 ^ 32 - 3) {rounds : ℕ} (statuses : List PacketStatus)
    {len : UInt32} (hlen : len.toNat ≤ size) (hrounds : size - len.toNat < rounds) :
    ((chunkLoop data size count rounds statuses len).value m).found =
      (statusLoop data size count.toNat statuses len.toNat).value m := by
  induction rounds generalizing statuses len with
  | zero => omega
  | succ rounds ih =>
    by_cases hcount : statuses.length < count.toNat
    · have hnext : (len + 2).toNat = len.toNat + 2 := toNat_add_of_le hlen hsize (by decide)
      by_cases hend : (len + 2).toNat > size
      · have hend' : (len.toNat : ℤ) + 2 > size := by omega
        rw [chunkLoop_cutOff rounds hcount hend, statusLoop, if_pos hcount, dif_pos hend']
        rfl
      · have hend' : ¬ (len.toNat : ℤ) + 2 > size := by omega
        rw [chunkLoop_next rounds hcount hend, statusLoop, if_pos hcount, dif_neg hend', value_bind,
          value_bind, ih _ (by omega) (by omega), hnext]
    · rw [chunkLoop_done _ (Nat.le_of_not_lt hcount), statusLoop, if_neg hcount]
      rfl

theorem deltaLoop_timeLoop (hsize : size ≤ 2 ^ 32 - 3) (base : UInt32) {count : ℕ}
    {statuses : List PacketStatus} (hcount : count ≤ statuses.length) (i : ℕ) (len : UInt32)
    (time : UInt64) (packets : Std.ExtTreeMap UInt32 UInt64) (hlen : len.toNat ≤ size) :
    (deltaLoop data size base count statuses i len time packets).value m =
      some ((timeLoop data size base count statuses i len.toNat time packets).value m) := by
  induction i, len, time, packets using deltaLoop.induct size base count statuses with
  | case1 i len time packets hi hs =>
    have hnone := List.getElem?_eq_none_iff.mp hs
    omega
  | case2 i len time packets hi hs ih =>
    rw [deltaLoop, timeLoop, if_pos hi, if_pos hi, hs]
    exact ih hlen
  | case3 i len time packets hi hs hend =>
    have hnext : (len + 1).toNat = len.toNat + 1 := toNat_add_of_le hlen hsize (by decide)
    have hend' : (len.toNat : ℤ) + 1 > size := by omega
    rw [deltaLoop, timeLoop, if_pos hi, if_pos hi, hs]
    simp only [hend, hend', if_true, value_pure]
  | case4 i len time packets hi hs hend ih =>
    have hnext : (len + 1).toNat = len.toNat + 1 := toNat_add_of_le hlen hsize (by decide)
    have hend' : ¬ (len.toNat : ℤ) + 1 > size := by omega
    have h := ih (m (data + len.toNat)) (not_lt.mp hend)
    rw [deltaLoop, timeLoop, if_pos hi, if_pos hi, hs]
    simp only [hend, hend', if_false, value_bind, value_readBE8]
    rw [h, hnext]
  | case5 i len time packets hi hs hend =>
    have hnext : (len + 2).toNat = len.toNat + 2 := toNat_add_of_le hlen hsize (by decide)
    have hend' : (len.toNat : ℤ) + 2 > size := by omega
    rw [deltaLoop, timeLoop, if_pos hi, if_pos hi, hs]
    simp only [hend, hend', if_true, value_pure]
  | case6 i len time packets hi hs hend ih =>
    have hnext : (len + 2).toNat = len.toNat + 2 := toNat_add_of_le hlen hsize (by decide)
    have hend' : ¬ (len.toNat : ℤ) + 2 > size := by omega
    have h := ih ((readShort (data + len.toNat)).value m) (not_lt.mp hend)
    rw [deltaLoop, timeLoop, if_pos hi, if_pos hi, hs]
    simp only [hend, hend', if_false, value_bind]
    rw [h, hnext]
  | case7 i len time packets hi hs ih =>
    rw [deltaLoop, timeLoop, if_pos hi, if_pos hi, hs]
    exact ih hlen
  | case8 i len time packets hi =>
    rw [deltaLoop, timeLoop, if_neg hi, if_neg hi]
    rfl

theorem parse_statuses (fb : TransportCCFeedBack) (h : ¬ size < 8) :
    (fb.parse data size).value m =
      match (statusLoop data size (statusCount m data).toNat [] 8).value m with
      | none => headed fb m data
      | some (statuses, len) =>
        { headed fb m data with
          packets := (timeLoop data size
            (be32 (m data) (m (data + 1)) (m (data + 2)) (m (data + 3))) (statusCount m data).toNat
            statuses 0 len ((headed fb m data).referenceTime * 64000).toUInt64
            fb.packets).value m } := by
  rw [TransportCCFeedBack.parse, if_neg h]
  simp only [value_bind, value_readBE32, value_readBE16, value_readBE8]
  rw [← statusCount]
  cases (statusLoop data size (statusCount m data).toNat [] 8).value m with
  | none => rfl
  | some r => rfl

theorem parse_returned (fb : TransportCCFeedBack) (hsize : size ≤ 2 ^ 32 - 3) {rounds : ℕ}
    (hrounds : size ≤ rounds) :
    (parse rounds fb data size).value m = .returned ((fb.parse data size).value m) := by
  by_cases h8 : size < 8
  · rw [parse_short rounds fb h8, TransportCCFeedBack.parse, if_pos h8]
    rfl
  · have height : (8 : UInt32).toNat = 8 := rfl
    have hlen : ((8 : UInt32).toNat : ℤ) ≤ size := by omega
    have hrounds' : size - (8 : UInt32).toNat < rounds := by omega
    have hends := chunkLoop_ends (m := m) data (statusCount m data) hsize [] hlen hrounds'
    have hdone := (chunkLoop_inside (m := m) data (statusCount m data) hsize rounds [] hlen).2
    have hfound := chunkLoop_found (m := m) data (statusCount m data) hsize [] hlen hrounds'
    rw [height] at hfound
    rw [parse_value rounds fb h8, parseFrom, value_bind, parse_statuses data fb h8, ← hfound]
    cases hchunks : (chunkLoop data size (statusCount m data) rounds [] 8).value m with
    | running => exact absurd hchunks hends
    | cutOff => rfl
    | done statuses len =>
      obtain ⟨hfits, hcount⟩ := hdone statuses len hchunks
      simp only [finish, value_bind, deltaLoop_timeLoop data hsize _ hcount 0 len _ _ hfits]
      rfl

end Agreement

section Wrap

theorem stores_zeros {n i : ℕ} (h : ∀ j, i ≤ j → j < i + 2 * n → m j = 0) :
    Stores m i ((List.replicate n (0 : UInt16)).flatMap writeBE16) := by
  induction n generalizing i with
  | zero => exact stores_nil m i
  | succ n ih =>
    rw [List.replicate_succ, List.flatMap_cons, stores_append, writeBE16, stores_cons, stores_cons]
    refine ⟨⟨h i (by omega) (by omega), h (i + 1) (by omega) (by omega), stores_nil _ _⟩, ?_⟩
    exact ih fun j hj hj' ↦ h j (by simp at hj; omega) (by simp at hj'; omega)

theorem chunkSymbols_zeros {l : List UInt16} {n : ℕ} (h : ∀ c ∈ l, c ∈ List.replicate n 0) :
    l.flatMap chunkSymbols = [] := by
  rw [List.flatMap_eq_nil_iff]
  intro c hc
  rw [List.eq_of_mem_replicate (h c hc)]
  decide

theorem chunkLoop_skip (rounds n : ℕ) {statuses : List PacketStatus} {len : UInt32}
    (hzero : ∀ j, data + len.toNat ≤ j → j < data + len.toNat + 2 * n → m j = 0)
    (haddr : len.toNat + 2 * n ≤ 2 ^ 32) (hsize : len.toNat + 2 * n ≤ size)
    (hcount : statuses.length < count.toNat) :
    (chunkLoop data size count (rounds + n) statuses len).value m =
        (chunkLoop data size count rounds statuses (len + UInt32.ofNat (2 * n))).value m ∧
      (chunkLoop data size count (rounds + n) statuses len).trace m =
        List.range' (data + len.toNat) (2 * n) ++
          (chunkLoop data size count rounds statuses (len + UInt32.ofNat (2 * n))).trace m := by
  have happend := chunkLoop_append size count rounds (List.replicate n 0) statuses
    (stores_zeros hzero)
  rw [List.length_replicate, chunkSymbols_zeros fun c hc ↦ hc, List.append_nil] at happend
  apply happend haddr hsize
  intro k _
  rw [chunkSymbols_zeros fun c hc ↦ List.mem_of_mem_take hc]
  exact hcount

def sparse : Memory := fun i ↦ if i = 3 then 1 else 0

theorem sparse_zero {i : ℕ} (h : 8 ≤ i) : sparse i = 0 := if_neg (by omega)

/-- At the offset `2 ^ 32 - 2` the sum of the check is zero, and the chunk is read across the end
of the buffer. -/
theorem chunkLoop_overrun (hlow : 2 ^ 32 - 2 ≤ size) (hhigh : size < 2 ^ 32) {n : ℕ}
    (hn : n = 2 ^ 31 - 5) : ¬ Inside size.toNat (chunkLoop 0 size 1 (1 + n) [] 8) sparse := by
  have hlen : (8 : UInt32).toNat = 8 := rfl
  have hcount : ([] : List PacketStatus).length < (1 : UInt16).toNat := by decide
  have hskip : (8 : UInt32).toNat + 2 * n ≤ size := by omega
  have hzero (j : ℕ) (hj : 0 + (8 : UInt32).toNat ≤ j) : sparse j = 0 := sparse_zero (by omega)
  obtain ⟨-, htrace⟩ := chunkLoop_skip 1 n (fun j hj _ ↦ hzero j hj) (by omega) hskip hcount
  have hend : 8 + UInt32.ofNat (2 * n) = 2 ^ 32 - 2 := by
    rw [hn]
    decide
  have hgo : ¬ ((2 ^ 32 - 2 + 2 : UInt32).toNat : ℤ) > size := by
    have hsum : (2 ^ 32 - 2 + 2 : UInt32).toNat = 0 := by decide
    omega
  intro hinside
  have hread : Inside size.toNat (chunkLoop 0 size 1 1 [] (2 ^ 32 - 2)) sparse := by
    intro i hi
    refine hinside i ?_
    rw [htrace, hend]
    exact List.mem_append_right _ hi
  rw [chunkLoop_next 0 hcount hgo, inside_bind, inside_readBE16] at hread
  have hlast : (2 ^ 32 - 2 : UInt32).toNat = 2 ^ 32 - 2 := by decide
  omega

theorem sparse_overrun (fb : TransportCCFeedBack) (hlow : 2 ^ 32 - 2 ≤ size)
    (hhigh : size < 2 ^ 32) : ¬ MemoryTight fb sparse size := by
  intro h
  obtain ⟨n, hn⟩ : ∃ n, n = 2 ^ 31 - 5 := ⟨_, rfl⟩
  have hinside := h.inside (1 + n)
  have hcount : statusCount sparse 0 = 1 := by decide
  rw [parse_inside _ fb (by omega) (by omega), parseFrom, inside_bind, hcount] at hinside
  exact chunkLoop_overrun hlow hhigh hn hinside.1

def circling : Memory := fun i ↦ if i = 2 then 0x20 else 0

theorem chunkSymbols_circling {i : ℕ} (h : i % 2 = 0) :
    chunkSymbols (be16 (circling i) (circling (i + 1))) = [] := by
  have hodd : circling (i + 1) = 0 := if_neg (by omega)
  rw [hodd, circling]
  split <;> decide

/-- In a buffer of `2 ^ 32` bytes or more the offset comes back to zero, and the loop goes on for
ever. -/
theorem circling_running (hsize : 2 ^ 32 ≤ size) (rounds : ℕ) {len : UInt32}
    (hlen : len.toNat % 2 = 0) :
    (chunkLoop 0 size 0x2000 rounds [] len).value circling = .running := by
  induction rounds generalizing len with
  | zero => rfl
  | succ rounds ih =>
    have hsum : (len + 2).toNat = (len.toNat + 2) % 2 ^ 32 := UInt32.toNat_add len 2
    have hgo : ¬ ((len + 2).toNat : ℤ) > size := by omega
    rw [chunkLoop_next rounds (by decide) hgo, value_bind, value_readBE16, Nat.zero_add,
      chunkSymbols_circling hlen]
    exact ih (by omega)

theorem circling_not_ending (fb : TransportCCFeedBack) (hsize : 2 ^ 32 ≤ size) :
    ¬ MemoryTight fb circling size := by
  intro h
  obtain ⟨rounds, hends⟩ := h.ends
  apply hends
  have hcount : statusCount circling 0 = 0x2000 := by decide
  rw [parse_value rounds fb (by omega), parseFrom, value_bind, hcount,
    circling_running hsize rounds rfl]
  rfl

/-- `Parse` is tight for buffers of every content up to the size that its offset can count, and
for no size above it. -/
theorem parse_tight_iff (size : ℤ) :
    (∀ fb m, MemoryTight fb m size) ↔ size ≤ 2 ^ 32 - 3 := by
  constructor
  · intro h
    by_contra hlarge
    by_cases hsize : size < 2 ^ 32
    · exact sparse_overrun ⟨0, 0, ∅⟩ (by omega) hsize (h _ _)
    · exact circling_not_ending ⟨0, 0, ∅⟩ (not_lt.mp hsize) (h _ _)
  · intro hsize fb m
    exact memoryTight fb m hsize

/-- The check passes a chunk that only starts in the buffer, and four zero gigabytes are read
round and round. -/
theorem large_not_tight : ¬ MemoryTight ⟨0, 0, ∅⟩ sparse (2 ^ 32 - 2) ∧
    ¬ MemoryTight ⟨0, 0, ∅⟩ circling (2 ^ 32) :=
  ⟨sparse_overrun _ (by decide) (by decide), circling_not_ending _ (by decide)⟩

end Wrap

end Spadia.TransportCC.Offset
