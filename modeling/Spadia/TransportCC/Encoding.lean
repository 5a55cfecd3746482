import Spadia.TransportCC.DraftLayout

namespace Spadia.TransportCC.Encoding

open Foundation DeltaClock ByteBuffer Wire.ByteOrder Feedback PacketStatus DraftLayout

def chunkBytes (l : List PacketStatus) : List UInt8 :=
  if l = [] then []
  else writeBE16 (chunkWord (l.take 7)) ++ chunkBytes (l.drop 7)
termination_by l.length
decreasing_by
  have h := List.length_pos_iff.mpr (by assumption : l ≠ [])
  simp only [List.length_drop]
  omega

def deltaByte (delta : ℤ) : List UInt8 :=
  if delta < 0 ∨ delta > 127 then writeBE16 (UInt16.ofInt (int16 delta)) else [UInt8.ofInt delta]

def deltaBytes (l : List ℤ) : List UInt8 := l.flatMap deltaByte

/-- The status that `Serialize` gives to a packet, from the move of its clock. -/
def label : Option ℤ → PacketStatus
  | none => notReceived
  | some delta => statusOf delta

theorem deltaBytes_cons (d : ℤ) (l : List ℤ) : deltaBytes (d :: l) = deltaByte d ++ deltaBytes l :=
  List.flatMap_cons

theorem writeBE16_toNat (w : UInt16) :
    256 * (w >>> 8).toUInt8.toNat + w.toUInt8.toNat = w.toNat := by
  have h := congrArg UInt16.toNat (be16_writeBE16 w)
  rw [be16_toNat] at h
  omega

theorem length_chunkBytes (l : List PacketStatus) :
    (chunkBytes l).length = 2 * ((l.length + 6) / 7) := by
  induction l using chunkBytes.induct with
  | case1 => simp [chunkBytes]
  | case2 l h ih =>
    have hpos : 0 < l.length := List.length_pos_iff.mpr h
    rw [chunkBytes, if_neg h, List.length_append, ih, List.length_drop]
    simp only [writeBE16, List.length_cons, List.length_nil]
    omega

theorem readStatuses_chunkBytes (l : List PacketStatus) (rest : List UInt8) :
    readStatuses l.length (chunkBytes l ++ rest) = some (l, rest) := by
  induction l using chunkBytes.induct with
  | case1 => simp [chunkBytes, readStatuses]
  | case2 l h ih =>
    have hpos : 0 < l.length := List.length_pos_iff.mpr h
    have htake : (symbols (chunkWord (l.take 7)).toNat).take l.length = l.take 7 := by
      rw [symbols_chunkWord (by simp), List.take_append, List.take_take, List.length_take]
      rcases Nat.lt_or_ge l.length 7 with h7 | h7
      · simp [Nat.min_eq_left h7.le, List.take_of_length_le h7.le]
        omega
      · simp [Nat.min_eq_left h7, Nat.min_eq_right h7]
    obtain ⟨need, hneed⟩ := Nat.exists_eq_add_one_of_ne_zero hpos.ne'
    have hrest : need + 1 - (l.take 7).length = (l.drop 7).length := by
      simp only [List.length_take, List.length_drop]; omega
    rw [hneed] at htake ⊢
    rw [chunkBytes, if_neg h, writeBE16]
    simp only [List.cons_append, List.nil_append, readStatuses, writeBE16_toNat, htake, hrest, ih,
      Option.map_some, List.take_append_drop]

theorem int16_eq {x : ℤ} (h₁ : -32768 ≤ x) (h₂ : x ≤ 32767) : int16 x = x := by
  unfold int16; omega

theorem signed_writeBE16 (d : ℤ) :
    signed (UInt16.ofInt (int16 d) >>> 8).toUInt8 (UInt16.ofInt (int16 d)).toUInt8 = int16 d := by
  have hw : ((UInt16.ofInt (int16 d)).toNat : ℤ) = int16 d % 65536 := by
    simp only [UInt16.ofInt, UInt16.toNat_ofNat']
    omega
  have h := writeBE16_toNat (UInt16.ofInt (int16 d))
  have hb := (UInt16.ofInt (int16 d)).toUInt8.toNat_lt
  have hrange : -32768 ≤ int16 d ∧ int16 d ≤ 32767 := by
    unfold int16
    omega
  unfold signed
  split <;> omega

theorem readMoves_deltaBytes (moves : List (Option ℤ)) (rest : List UInt8) :
    readMoves (moves.map label) (deltaBytes moves.reduceOption ++ rest) =
      some (moves.map (Option.map int16)) := by
  induction moves with
  | nil => simp [readMoves]
  | cons d moves ih =>
    cases d with
    | none =>
      rw [List.reduceOption_cons_of_none]
      simp [label, readMoves, ih]
    | some d =>
      rw [List.reduceOption_cons_of_some, deltaBytes_cons, List.append_assoc]
      by_cases hd : d < 0 ∨ d > 127
      · simp only [List.map_cons, label, statusOf, deltaByte, hd, if_true, writeBE16,
          List.cons_append, List.nil_append, readMoves, signed_writeBE16, ih, Option.map_some]
      · have hb : ((UInt8.ofInt d).toNat : ℤ) = int16 d := by
          rw [int16_eq (by omega) (by omega)]
          simp only [UInt8.ofInt, UInt8.toNat_ofNat']
          omega
        simp only [List.map_cons, label, statusOf, deltaByte, hd, if_false, List.cons_append,
          List.nil_append, readMoves, hb, ih, Option.map_some]

theorem map_int16_eq {moves : List (Option ℤ)}
    (h : ∀ d ∈ moves.reduceOption, -32768 ≤ d ∧ d ≤ 32767) :
    moves.map (Option.map int16) = moves := by
  refine (List.map_congr_left ?_).trans (List.map_id _)
  intro m hm
  cases m with
  | none => rfl
  | some d =>
    have hd := h d (List.reduceOption_mem_iff.mpr hm)
    exact congrArg some (int16_eq hd.1 hd.2)

theorem writeChunks_eq (statuses : List PacketStatus) (data i : ℕ) (b : Buffer) (len : ℕ) :
    writeChunks statuses data i b len =
      (write b (data + len) (chunkBytes (statuses.drop i)),
        len + (chunkBytes (statuses.drop i)).length) := by
  induction i, b, len using writeChunks.induct statuses data with
  | case1 i b len h ih =>
    have hne : statuses.drop i ≠ [] := by simpa using h
    rw [writeChunks, if_pos h, ih, chunkBytes.eq_def (statuses.drop i), if_neg hne, List.drop_drop,
      ← Nat.add_assoc, ← write_write_append]
    simp [Nat.add_assoc]
  | case2 i b len h =>
    have hnil : statuses.drop i = [] := List.drop_eq_nil_of_le (Nat.le_of_not_lt h)
    rw [writeChunks, if_neg h, hnil, chunkBytes]
    simp

theorem writeDelta_eq (data : ℕ) (out : Buffer × ℕ) (delta : ℤ) : writeDelta data out delta =
    (write out.1 (data + out.2) (deltaByte delta), out.2 + (deltaByte delta).length) := by
  unfold writeDelta deltaByte
  split <;> rfl

theorem foldl_writeDelta_eq (data : ℕ) (l : List ℤ) (out : Buffer × ℕ) :
    l.foldl (writeDelta data) out =
      (write out.1 (data + out.2) (deltaBytes l), out.2 + (deltaBytes l).length) := by
  induction l generalizing out with
  | nil => simp [deltaBytes]
  | cons d l ih =>
    rw [List.foldl_cons, ih, writeDelta_eq, deltaBytes_cons, ← write_write_append,
      List.length_append]
    simp [Nat.add_assoc]

theorem writePadding_eq (data : ℕ) (b : Buffer) (len : ℕ) : writePadding data b len =
    (write b (data + len) (List.replicate ((4 - len % 4) % 4) 0), len + (4 - len % 4) % 4) := by
  induction b, len using writePadding.induct data with
  | case1 b len h ih =>
    have hpad : (4 - len % 4) % 4 = (4 - (len + 1) % 4) % 4 + 1 := by omega
    have hw := write_write_append b (data + len) [0]
      (List.replicate ((4 - (len + 1) % 4) % 4) 0)
    rw [writePadding, if_pos h, ih, hpad, List.replicate_succ, ← Nat.add_assoc data]
    exact Prod.ext hw (by simp only; omega)
  | case2 b len h =>
    have hpad : (4 - len % 4) % 4 = 0 := by omega
    rw [writePadding, if_neg h, hpad]
    simp

end Spadia.TransportCC.Encoding
