import Spadia.Foundation.DeltaClock
import Spadia.TransportCC.Feedback

namespace Spadia.TransportCC.DraftLayout

open Foundation Feedback PacketStatus Wire.ByteOrder

def symbols (chunk : ℕ) : List PacketStatus :=
  if chunk < 2 ^ 15 then List.replicate (chunk % 2 ^ 13) (ofCode (chunk / 2 ^ 13))
  else if chunk < 2 ^ 15 + 2 ^ 14 then
    (List.range 14).map fun j ↦ ofCode (chunk / 2 ^ (13 - j) % 2)
  else (List.range 7).map fun j ↦ ofCode (chunk / 2 ^ (12 - 2 * j) % 4)

/-- Read chunks until `need` statuses have been found; what a chunk holds beyond them is
filling. -/
def readStatuses : ℕ → List UInt8 → Option (List PacketStatus × List UInt8)
  | 0, bytes => some ([], bytes)
  | need + 1, b₀ :: b₁ :: bytes =>
    let l := (symbols (256 * b₀.toNat + b₁.toNat)).take (need + 1)
    (readStatuses (need + 1 - l.length) bytes).map fun r ↦ (l ++ r.1, r.2)
  | _ + 1, _ => none

def signed (b₀ b₁ : UInt8) : ℤ :=
  if b₀.toNat < 128 then 256 * b₀.toNat + b₁.toNat else 256 * b₀.toNat + b₁.toNat - 65536

/-- The moves of the receiver's clock, one for each status: a byte for a small delta, a
signed word for a large one. -/
def readMoves : List PacketStatus → List UInt8 → Option (List (Option ℤ))
  | [], _ => some []
  | smallDelta :: l, b :: bytes => (readMoves l bytes).map (some (b.toNat : ℤ) :: ·)
  | largeOrNegativeDelta :: l, b₀ :: b₁ :: bytes =>
    (readMoves l bytes).map (some (signed b₀ b₁) :: ·)
  | notReceived :: l, bytes | reserved :: l, bytes => (readMoves l bytes).map (none :: ·)
  | _ :: _, _ => none

structure Report where
  base : ℕ
  count : ℕ
  statuses : List PacketStatus
  times : List (Option ℤ)

/-- A feedback message by the layout of the draft. -/
def decode : List UInt8 → Option Report
  | s₀ :: s₁ :: n₀ :: n₁ :: r₀ :: r₁ :: r₂ :: _ :: bytes =>
    let count := 256 * n₀.toNat + n₁.toNat
    let reference : ℤ := 65536 * r₀.toNat + 256 * r₁.toNat + r₂.toNat
    match readStatuses count bytes with
    | none => none
    | some (statuses, bytes) => (readMoves statuses bytes).map fun moves ↦
      ⟨256 * s₀.toNat + s₁.toNat, count, statuses, DeltaClock.replay 250 (reference * 64000) moves⟩
  | _ => none

theorem code_lt (s : PacketStatus) : s.code < 4 := by cases s <;> decide

theorem ofCode_code (s : PacketStatus) : ofCode s.code = s := by cases s <;> rfl

theorem zipIdx_replicate_fold (chunk : UInt16) (k i : ℕ) :
    ((List.replicate k notReceived).zipIdx i).foldl
      (fun chunk e ↦ chunk ||| UInt16.ofNat (e.1.code <<< (12 - 2 * e.2))) chunk = chunk := by
  induction k generalizing i with
  | zero => rfl
  | succ k ih => simpa [List.replicate_succ, code] using ih (i + 1)

theorem chunkWord_append_replicate (l : List PacketStatus) (k : ℕ) :
    chunkWord (l ++ List.replicate k notReceived) = chunkWord l := by
  rw [chunkWord, List.zipIdx_append, List.foldl_append, zipIdx_replicate_fold, chunkWord]

theorem or_digit {s : ℕ} (hs : s < 4) (x : ℕ) {k k' : ℕ} (hk : k' = k + 2) (h : k ≤ 12) :
    x * 2 ^ k' ||| s * 2 ^ k % 2 ^ 16 = (4 * x + s) * 2 ^ k := by
  have hp : 2 ^ k ≤ 2 ^ 12 := Nat.pow_le_pow_right (by decide) h
  have hlt : s * 2 ^ k < 2 ^ k' := by
    rw [hk, Nat.pow_add, Nat.mul_comm]
    exact Nat.mul_lt_mul_of_pos_left hs (Nat.two_pow_pos k)
  have hmod : s * 2 ^ k < 2 ^ 16 :=
    lt_of_le_of_lt (Nat.mul_le_mul (Nat.le_of_lt_succ hs) hp) (by decide)
  rw [Nat.mod_eq_of_lt hmod, mul_or_eq_add _ _ _ hlt, hk, Nat.pow_add]
  ring

theorem chunkWord_seven (a b c d e f g : PacketStatus) :
    (chunkWord [a, b, c, d, e, f, g]).toNat = 49152 + a.code * 4096 + b.code * 1024 +
      c.code * 256 + d.code * 64 + e.code * 16 + f.code * 4 + g.code := by
  have hbase : UInt16.toNat 49152 = 3 * 2 ^ 14 := rfl
  simp only [chunkWord, List.zipIdx, List.foldl, UInt16.toNat_or, UInt16.toNat_ofNat',
    Nat.shiftLeft_eq, Nat.reduceAdd, Nat.reduceMul, Nat.reduceSub, hbase]
  rw [or_digit (code_lt a) _ rfl (by decide), or_digit (code_lt b) _ rfl (by decide),
    or_digit (code_lt c) _ rfl (by decide), or_digit (code_lt d) _ rfl (by decide),
    or_digit (code_lt e) _ rfl (by decide), or_digit (code_lt f) _ rfl (by decide),
    or_digit (code_lt g) _ rfl (by decide)]
  ring

theorem symbols_seven (a b c d e f g : PacketStatus) :
    symbols (chunkWord [a, b, c, d, e, f, g]).toNat = [a, b, c, d, e, f, g] := by
  have ha := code_lt a
  have hb := code_lt b
  have hc := code_lt c
  have hd := code_lt d
  have he := code_lt e
  have hf := code_lt f
  have hg := code_lt g
  have hlist : ∀ n : ℕ, (List.range 7).map (fun j ↦ ofCode (n / 2 ^ (12 - 2 * j) % 4)) =
      [n / 4096 % 4, n / 1024 % 4, n / 256 % 4, n / 64 % 4, n / 16 % 4, n / 4 % 4, n % 4].map
        ofCode := by
    intro n; simp [List.range_succ]
  have hw := chunkWord_seven a b c d e f g
  have ht : [a, b, c, d, e, f, g] = [a.code, b.code, c.code, d.code, e.code, f.code, g.code].map
      ofCode := by simp only [List.map, ofCode_code]
  rw [symbols, if_neg (by omega), if_neg (by omega), hlist, hw, ht]
  congr 1
  simp only [List.cons.injEq, and_true]
  omega

theorem symbols_chunkWord {l : List PacketStatus} (h : l.length ≤ 7) :
    symbols (chunkWord l).toNat = l ++ List.replicate (7 - l.length) notReceived := by
  rw [← chunkWord_append_replicate l (7 - l.length)]
  have hlen : (l ++ List.replicate (7 - l.length) notReceived).length = 7 := by simp; omega
  generalize l ++ List.replicate (7 - l.length) notReceived = k at hlen
  match k, hlen with
  | [a, b, c, d, e, f, g], _ => exact symbols_seven a b c d e f g

end Spadia.TransportCC.DraftLayout
