import Spadia.Foundation.LabelledRun
import Spadia.Rtcp.Reports

namespace Spadia.Rtcp.ReportBlock

open Foundation LabelledRun Wire.ByteOrder Reports

abbrev Block := RTCPReceiverReportBlock

namespace Block

def byte (b : Block) (i : ℕ) : UInt8 := b.buffer[i]?.getD 0

def put (b : Block) (off : ℕ) (l : List UInt8) : Block where
  buffer := Vector.ofFn fun i ↦ if off ≤ i ∧ i < off + l.length then l.getD (i - off) 0
    else b.byte i

def word (b : Block) (off : ℕ) : UInt32 :=
  be32 (b.byte off) (b.byte (off + 1)) (b.byte (off + 2)) (b.byte (off + 3))

def getSSRC (b : Block) : UInt32 := b.word 0
def getFactionLost (b : Block) : UInt8 := b.byte 4
def getLostCount (b : Block) : UInt32 := b.word 5 &&& 0x007FFFFF
def getLastSeqNum (b : Block) : UInt32 := b.word 8
def getJitter (b : Block) : UInt32 := b.word 12
def getLastSR (b : Block) : UInt32 := b.word 16
def getDelaySinceLastSR (b : Block) : UInt32 := b.word 20

/-- The writer of a single byte takes the lowest byte of the number. -/
def setSSRC (b : Block) (ssrc : UInt32) : Block := b.put 0 [ssrc.toUInt8]

def setFractionLost (b : Block) (fraction : UInt8) : Block := b.put 4 [fraction]

/-- The count has three bytes in the report, and four are written. -/
def setLostCount (b : Block) (count : UInt32) : Block := b.put 5 (writeBE32 (count &&& 0x7FFFFF))

def setLastSeqNum (b : Block) (seq : UInt32) : Block := b.put 8 (writeBE32 seq)
def setLastJitter (b : Block) (jitter : UInt32) : Block := b.put 12 (writeBE32 jitter)
def setLastSR (b : Block) (last : UInt32) : Block := b.put 16 (writeBE32 last)
def setDelaySinceLastSR (b : Block) (delay : UInt32) : Block := b.put 20 (writeBE32 delay)

end Block

inductive Field
  | ssrc
  | fractionLost
  | lostCount
  | lastSeqNum
  | jitter
  | lastSR
  | delaySinceLastSR
deriving DecidableEq, Repr

def get (b : Block) : Field → ℕ
  | .ssrc => b.getSSRC.toNat
  | .fractionLost => b.getFactionLost.toNat
  | .lostCount => b.getLostCount.toNat
  | .lastSeqNum => b.getLastSeqNum.toNat
  | .jitter => b.getJitter.toNat
  | .lastSR => b.getLastSR.toNat
  | .delaySinceLastSR => b.getDelaySinceLastSR.toNat

inductive Call
  | setSSRC (ssrc : UInt32)
  | setFractionLost (fraction : UInt8)
  | setLostCount (count : UInt32) (hcount : count.toNat < 2 ^ 23)
  | setLastSeqNum (seq : UInt32)
  | setLastJitter (jitter : UInt32)
  | setLastSR (last : UInt32)
  | setDelaySinceLastSR (delay : UInt32)

namespace Call

def field : Call → Field
  | setSSRC _ => .ssrc
  | setFractionLost _ => .fractionLost
  | setLostCount _ _ => .lostCount
  | setLastSeqNum _ => .lastSeqNum
  | setLastJitter _ => .jitter
  | setLastSR _ => .lastSR
  | setDelaySinceLastSR _ => .delaySinceLastSR

def value : Call → ℕ
  | setSSRC ssrc => ssrc.toNat
  | setFractionLost fraction => fraction.toNat
  | setLostCount count _ => count.toNat
  | setLastSeqNum seq => seq.toNat
  | setLastJitter jitter => jitter.toNat
  | setLastSR last => last.toNat
  | setDelaySinceLastSR delay => delay.toNat

def apply (b : Block) : Call → Block
  | setSSRC ssrc => b.setSSRC ssrc
  | setFractionLost fraction => b.setFractionLost fraction
  | setLostCount count _ => b.setLostCount count
  | setLastSeqNum seq => b.setLastSeqNum seq
  | setLastJitter jitter => b.setLastJitter jitter
  | setLastSR last => b.setLastSR last
  | setDelaySinceLastSR delay => b.setDelaySinceLastSR delay

end Call

def lastValue (f : Field) (v : ℕ) (calls : List Call) : ℕ :=
  calls.foldl (fun v c ↦ if c.field = f then c.value else v) v

/-- After every call, each getter returns what its own setter was given last, and the call has
changed no other field. -/
structure Independent (b : Block) (calls : List Call) : Prop where
  returns : ∀ cs, cs <+: calls → ∀ f,
    get (cs.foldl Call.apply b) f = lastValue f (get b f) cs
  frame : ∀ cs c, cs ++ [c] <+: calls → ∀ f, f ≠ c.field →
    get ((cs ++ [c]).foldl Call.apply b) f = get (cs.foldl Call.apply b) f

/-- What a call has to leave alone: the three low bytes of the SSRC, which its setter does not
write, and the byte that the lost count and the sequence number share. -/
def Keeps (b : Block) : Call → Prop
  | .setSSRC ssrc => ssrc.toNat / 2 ^ 24 = ssrc.toNat % 2 ^ 8 ∧
      ssrc.toNat % 2 ^ 24 = b.getSSRC.toNat % 2 ^ 24
  | .setLostCount count _ => count.toNat % 2 ^ 8 = b.getLastSeqNum.toNat / 2 ^ 24
  | .setLastSeqNum seq => seq.toNat / 2 ^ 24 = b.getLastSeqNum.toNat / 2 ^ 24
  | _ => True

def Field.start : Field → ℕ
  | ssrc => 0
  | fractionLost => 4
  | lostCount => 5
  | lastSeqNum => 8
  | jitter => 12
  | lastSR => 16
  | delaySinceLastSR => 20

def Field.width : Field → ℕ
  | fractionLost => 1
  | _ => 4

def Call.bytes : Call → List UInt8
  | setSSRC ssrc => [ssrc.toUInt8]
  | setFractionLost fraction => [fraction]
  | setLostCount count _ => writeBE32 (count &&& 0x7FFFFF)
  | setLastSeqNum seq => writeBE32 seq
  | setLastJitter jitter => writeBE32 jitter
  | setLastSR last => writeBE32 last
  | setDelaySinceLastSR delay => writeBE32 delay

theorem Call.apply_eq (b : Block) (c : Call) : c.apply b = b.put c.field.start c.bytes := by
  cases c <;> rfl

theorem Call.length_bytes_le (c : Call) : c.bytes.length ≤ c.field.width := by
  cases c <;> simp [Call.bytes, Call.field, Field.width]

namespace Block

theorem byte_put (b : Block) (off : ℕ) (l : List UInt8) {i : ℕ} (hi : i < 24) :
    (b.put off l).byte i =
      if off ≤ i ∧ i < off + l.length then l.getD (i - off) 0 else b.byte i := by
  simp [byte, put, hi]

theorem byte_put_outside (b : Block) {off i : ℕ} {l : List UInt8} (hi : i < 24)
    (h : i < off ∨ off + l.length ≤ i) : (b.put off l).byte i = b.byte i := by
  rw [byte_put b off l hi, if_neg (by omega)]

theorem word_put (b : Block) {off : ℕ} (hoff : off + 4 ≤ 24) (v : UInt32) :
    (b.put off (writeBE32 v)).word off = v := by
  have hbyte (j : ℕ) (hj : j < 4) :
      (b.put off (writeBE32 v)).byte (off + j) = (writeBE32 v).getD j 0 := by
    rw [byte_put b off _ (by omega), if_pos ⟨Nat.le_add_right off j, by simpa using hj⟩,
      Nat.add_sub_cancel_left]
  have hfirst := hbyte 0 (by decide)
  rw [Nat.add_zero] at hfirst
  rw [word, hfirst, hbyte 1 (by decide), hbyte 2 (by decide), hbyte 3 (by decide)]
  exact be32_writeBE32 v

end Block

theorem get_congr {b b' : Block} {f : Field}
    (h : ∀ i, f.start ≤ i → i < f.start + f.width → b.byte i = b'.byte i) : get b f = get b' f := by
  have hword (off : ℕ) (hoff : ∀ i, off ≤ i → i < off + 4 → b.byte i = b'.byte i) :
      b.word off = b'.word off := by
    rw [Block.word, Block.word, hoff off (by omega) (by omega),
      hoff (off + 1) (by omega) (by omega), hoff (off + 2) (by omega) (by omega),
      hoff (off + 3) (by omega) (by omega)]
  cases f with
  | ssrc => exact congrArg UInt32.toNat (hword 0 h)
  | fractionLost => exact congrArg UInt8.toNat (h 4 (by decide) (by decide))
  | lostCount => exact congrArg (fun w : UInt32 ↦ (w &&& 0x007FFFFF).toNat) (hword 5 h)
  | lastSeqNum => exact congrArg UInt32.toNat (hword 8 h)
  | jitter => exact congrArg UInt32.toNat (hword 12 h)
  | lastSR => exact congrArg UInt32.toNat (hword 16 h)
  | delaySinceLastSR => exact congrArg UInt32.toNat (hword 20 h)

def Shares (f g : Field) : Prop :=
  f = .lostCount ∧ g = .lastSeqNum ∨ f = .lastSeqNum ∧ g = .lostCount

instance (f g : Field) : Decidable (Shares f g) := inferInstanceAs (Decidable (_ ∨ _))

theorem disjoint_of_not_shares {f g : Field} (hne : f ≠ g) (h : ¬ Shares f g) :
    f.start + f.width ≤ g.start ∨ g.start + g.width ≤ f.start := by
  cases f <;> cases g <;> first | exact absurd rfl hne | exact absurd (by decide) h | decide

theorem Field.end_le (f : Field) : f.start + f.width ≤ 24 := by
  cases f <;> decide

theorem get_apply_of_not_shares (b : Block) {c : Call} {f : Field} (hne : f ≠ c.field)
    (h : ¬ Shares f c.field) : get (c.apply b) f = get b f := by
  have hdisjoint := disjoint_of_not_shares hne h
  have hlength := c.length_bytes_le
  have hend := f.end_le
  apply get_congr
  intro i hstart hlt
  rw [c.apply_eq, Block.byte_put_outside b (by omega) (by omega)]

/-- One call does to the fields what its name says. -/
def Exact (b : Block) (c : Call) : Prop :=
  ∀ f, get (c.apply b) f = if c.field = f then c.value else get b f

theorem exact_iff_shares (b : Block) (c : Call) : Exact b c ↔
    get (c.apply b) c.field = c.value ∧
      ∀ f, Shares f c.field → get (c.apply b) f = get b f := by
  constructor
  · intro h
    refine ⟨(h c.field).trans (if_pos rfl), fun f hf ↦ (h f).trans (if_neg ?_)⟩
    rintro rfl
    rcases hf with ⟨h₁, h₂⟩ | ⟨h₁, h₂⟩ <;> rw [h₁] at h₂ <;> cases h₂
  · intro h f
    split
    case isTrue hf => rw [← hf, h.1]
    case isFalse hne =>
      by_cases hf : Shares f c.field
      · exact h.2 f hf
      · exact get_apply_of_not_shares b (Ne.symm hne) hf

theorem toNat_word (b : Block) (off : ℕ) : (b.word off).toNat = (b.byte off).toNat * 2 ^ 24 +
    (b.byte (off + 1)).toNat * 2 ^ 16 + (b.byte (off + 2)).toNat * 2 ^ 8 +
      (b.byte (off + 3)).toNat :=
  be32_toNat _ _ _ _

theorem toNat_low (w : UInt32) : (w &&& 0x7FFFFF).toNat = w.toNat % 2 ^ 23 := by
  rw [UInt32.toNat_and]
  exact Nat.and_two_pow_sub_one_eq_mod w.toNat 23

theorem get_apply_self (b : Block) {c : Call} (h : c.field ≠ .ssrc) :
    get (c.apply b) c.field = c.value := by
  cases c with
  | setSSRC ssrc => exact absurd rfl h
  | setFractionLost fraction =>
    have hbyte : (b.put 4 [fraction]).byte 4 = fraction := Block.byte_put b 4 [fraction] (by decide)
    exact congrArg UInt8.toNat hbyte
  | setLostCount count hcount =>
    have hword : (b.setLostCount count).getLostCount = (count &&& 0x7FFFFF) &&& 0x7FFFFF :=
      congrArg (· &&& 0x7FFFFF) (Block.word_put b (by decide) _)
    calc (b.setLostCount count).getLostCount.toNat = count.toNat % 2 ^ 23 % 2 ^ 23 := by
          rw [hword, toNat_low, toNat_low]
      _ = count.toNat := by omega
  | setLastSeqNum seq => exact congrArg UInt32.toNat (Block.word_put b (by decide) seq)
  | setLastJitter jitter => exact congrArg UInt32.toNat (Block.word_put b (by decide) jitter)
  | setLastSR last => exact congrArg UInt32.toNat (Block.word_put b (by decide) last)
  | setDelaySinceLastSR delay => exact congrArg UInt32.toNat (Block.word_put b (by decide) delay)

theorem getSSRC_setSSRC (b : Block) (ssrc : UInt32) : (b.setSSRC ssrc).getSSRC.toNat =
    ssrc.toNat % 2 ^ 8 * 2 ^ 24 + b.getSSRC.toNat % 2 ^ 24 := by
  have hfirst : (b.setSSRC ssrc).byte 0 = ssrc.toUInt8 :=
    Block.byte_put b 0 [ssrc.toUInt8] (by decide)
  have hrest (i : ℕ) (hpos : 0 < i) (hi : i < 24) : (b.setSSRC ssrc).byte i = b.byte i :=
    Block.byte_put_outside b hi (.inr hpos)
  have hb₁ := (b.byte 1).toNat_lt
  have hb₂ := (b.byte 2).toNat_lt
  have hb₃ := (b.byte 3).toNat_lt
  rw [Block.getSSRC, Block.getSSRC, toNat_word, toNat_word]
  simp only [Nat.reduceAdd]
  rw [hfirst, hrest 1 (by decide) (by decide), hrest 2 (by decide) (by decide),
    hrest 3 (by decide) (by decide), UInt32.toNat_toUInt8]
  omega

theorem getLostCount_mod (b : Block) :
    b.getLostCount.toNat % 2 ^ 8 = b.getLastSeqNum.toNat / 2 ^ 24 := by
  have hb₈ := (b.byte 8).toNat_lt
  have hb₉ := (b.byte 9).toNat_lt
  have hb₁₀ := (b.byte 10).toNat_lt
  have hb₁₁ := (b.byte 11).toNat_lt
  rw [Block.getLostCount, toNat_low, Block.getLastSeqNum, toNat_word, toNat_word]
  simp only [Nat.reduceAdd]
  omega

theorem getLastSeqNum_setLostCount (b : Block) (count : UInt32) :
    (b.setLostCount count).getLastSeqNum.toNat % 2 ^ 24 = b.getLastSeqNum.toNat % 2 ^ 24 := by
  have hrest (i : ℕ) (hlt : 8 < i) (hi : i < 24) : (b.setLostCount count).byte i = b.byte i :=
    Block.byte_put_outside b hi (.inr (by simp only [length_writeBE32]; omega))
  rw [Block.getLastSeqNum, Block.getLastSeqNum, toNat_word, toNat_word]
  simp only [Nat.reduceAdd]
  rw [hrest 9 (by decide) (by decide), hrest 10 (by decide) (by decide),
    hrest 11 (by decide) (by decide)]
  omega

theorem getLostCount_setLastSeqNum (b : Block) (seq : UInt32) :
    (b.setLastSeqNum seq).getLostCount.toNat / 2 ^ 8 = b.getLostCount.toNat / 2 ^ 8 := by
  have hrest (i : ℕ) (hlt : i < 8) : (b.setLastSeqNum seq).byte i = b.byte i :=
    Block.byte_put_outside b (by omega) (.inl hlt)
  have hb := (b.byte 8).toNat_lt
  have hb' := ((b.setLastSeqNum seq).byte 8).toNat_lt
  rw [Block.getLostCount, Block.getLostCount, toNat_low, toNat_low, toNat_word, toNat_word]
  simp only [Nat.reduceAdd]
  rw [hrest 5 (by decide), hrest 6 (by decide), hrest 7 (by decide)]
  omega

theorem forall_shares_lostCount {P : Field → Prop} :
    (∀ f, Shares f .lostCount → P f) ↔ P .lastSeqNum := by
  simp [Shares]

theorem forall_shares_lastSeqNum {P : Field → Prop} :
    (∀ f, Shares f .lastSeqNum → P f) ↔ P .lostCount := by
  simp [Shares]

theorem not_shares {f g : Field} (hlost : g ≠ .lostCount) (hseq : g ≠ .lastSeqNum) :
    ¬ Shares f g := by
  intro h
  rcases h with ⟨-, h⟩ | ⟨-, h⟩
  · exact hseq h
  · exact hlost h

theorem exact_of_own_bytes (b : Block) {c : Call} (hssrc : c.field ≠ .ssrc)
    (hlost : c.field ≠ .lostCount) (hseq : c.field ≠ .lastSeqNum) : Exact b c :=
  (exact_iff_shares b c).mpr
    ⟨get_apply_self b hssrc, fun _ h ↦ absurd h (not_shares hlost hseq)⟩

theorem exact_iff_keeps (b : Block) (c : Call) : Exact b c ↔ Keeps b c := by
  cases c with
  | setSSRC ssrc =>
    have hget := getSSRC_setSSRC b ssrc
    have hlt := ssrc.toNat_lt
    have hshares (f : Field) : ¬ Shares f .ssrc := not_shares nofun nofun
    rw [exact_iff_shares]
    refine (and_iff_left fun f h ↦ absurd h (hshares f)).trans ?_
    simp only [get, Call.apply, Call.field, Call.value, Keeps]
    omega
  | setLostCount count hcount =>
    have hself : (b.setLostCount count).getLostCount.toNat = count.toNat :=
      get_apply_self b (c := .setLostCount count hcount) nofun
    have hlow := getLostCount_mod (b.setLostCount count)
    have hrest := getLastSeqNum_setLostCount b count
    rw [exact_iff_shares]
    refine (and_iff_right hself).trans (forall_shares_lostCount.trans ?_)
    simp only [get, Call.apply, Keeps]
    omega
  | setLastSeqNum seq =>
    have hself : (b.setLastSeqNum seq).getLastSeqNum.toNat = seq.toNat :=
      get_apply_self b (c := .setLastSeqNum seq) nofun
    have hlow := getLostCount_mod b
    have hlow' := getLostCount_mod (b.setLastSeqNum seq)
    have hrest := getLostCount_setLastSeqNum b seq
    rw [exact_iff_shares]
    refine (and_iff_right hself).trans (forall_shares_lastSeqNum.trans ?_)
    simp only [get, Call.apply, Keeps]
    omega
  | setFractionLost fraction => exact iff_of_true (exact_of_own_bytes b nofun nofun nofun) trivial
  | setLastJitter jitter => exact iff_of_true (exact_of_own_bytes b nofun nofun nofun) trivial
  | setLastSR last => exact iff_of_true (exact_of_own_bytes b nofun nofun nofun) trivial
  | setDelaySinceLastSR delay =>
    exact iff_of_true (exact_of_own_bytes b nofun nofun nofun) trivial

/-- A call that keeps the shared bytes of the block leaves the condition of every call as it
was. -/
theorem keeps_apply_iff {b : Block} {c : Call} (h : Keeps b c) (c' : Call) :
    Keeps (c.apply b) c' ↔ Keeps b c' := by
  have hexact := (exact_iff_keeps b c).mpr h
  have hssrc : (c.apply b).getSSRC.toNat % 2 ^ 24 = b.getSSRC.toNat % 2 ^ 24 := by
    have hget : (c.apply b).getSSRC.toNat = _ := hexact .ssrc
    rw [hget]
    cases c with
    | setSSRC ssrc => exact h.2
    | _ => rfl
  have hseq : (c.apply b).getLastSeqNum.toNat / 2 ^ 24 = b.getLastSeqNum.toNat / 2 ^ 24 := by
    have hget : (c.apply b).getLastSeqNum.toNat = _ := hexact .lastSeqNum
    rw [hget]
    cases c with
    | setLastSeqNum seq => exact h
    | _ => rfl
  cases c' with
  | setSSRC ssrc => simp only [Keeps, hssrc]
  | setLostCount count hcount => simp only [Keeps, hseq]
  | setLastSeqNum seq => simp only [Keeps, hseq]
  | _ => exact Iff.rfl

section Run

abbrev Tracked := Block × (Field → ℕ)

def step (s : Tracked) (c : Call) : Option Tracked :=
  some (c.apply s.1, Function.update s.2 c.field c.value)

def Agrees (s : Tracked) : Prop := ∀ f, get s.1 f = s.2 f

theorem agrees_step_iff {s s' : Tracked} {c : Call} (h : Agrees s) (hs' : step s c = some s') :
    Agrees s' ↔ Keeps s.1 c := by
  obtain rfl := Option.some.inj hs'
  rw [← exact_iff_keeps]
  refine forall_congr' fun f ↦ iff_of_eq (congrArg (_ = ·) ?_)
  simp only [Function.update_apply, h f]
  exact if_congr eq_comm rfl rfl

theorem run_step (calls : List Call) (s : Tracked) : run step s calls =
    some (calls.foldl Call.apply s.1, fun f ↦ lastValue f (s.2 f) calls) := by
  induction calls generalizing s with
  | nil => rfl
  | cons c calls ih =>
    refine run_cons.mpr ⟨_, rfl, (ih _).trans ?_⟩
    refine congrArg (fun v ↦ some (_, v)) (funext fun f ↦ ?_)
    simp only [Function.update_apply, lastValue, List.foldl_cons]
    exact congrArg (fun v ↦ calls.foldl _ v) (if_congr eq_comm rfl rfl)

theorem along_keeps_iff (calls : List Call) (s : Tracked) :
    Along step (fun s c ↦ Keeps s.1 c) s calls ↔ ∀ c ∈ calls, Keeps s.1 c := by
  induction calls generalizing s with
  | nil => simp [Along]
  | cons c calls ih =>
    rw [Along, List.forall_mem_cons]
    refine and_congr_right fun h ↦ ?_
    rw [step]
    simp only [Option.some.injEq, forall_eq', ih]
    exact forall₂_congr fun c' _ ↦ keeps_apply_iff h c'

end Run

theorem returns_iff (b : Block) (calls : List Call) :
    (∀ cs, cs <+: calls → ∀ f, get (cs.foldl Call.apply b) f = lastValue f (get b f) cs) ↔
      ∀ c ∈ calls, Keeps b c := by
  rw [← along_keeps_iff calls (b, get b), ← forall_prefix_iff_along (I := Agrees)
    (fun _ _ h ↦ nomatch h) (fun _ _ _ h hs' ↦ agrees_step_iff h hs') (fun _ ↦ rfl)]
  refine forall₂_congr fun cs _ ↦ ?_
  simp only [run_step, Option.some.injEq, forall_eq']
  rfl

/-- The fields are independent in a run exactly if every SSRC it sets has the low bytes of the
one before and its own lowest byte for the highest, and no count and no sequence number changes
the byte that these two share. -/
theorem independent_iff (b : Block) (calls : List Call) :
    Independent b calls ↔ ∀ c ∈ calls, Keeps b c := by
  rw [← returns_iff]
  refine ⟨Independent.returns, fun h ↦ ⟨h, fun cs c hcs f hf ↦ ?_⟩⟩
  rw [h _ hcs, h cs ((List.prefix_append cs [c]).trans hcs), lastValue, List.foldl_append]
  exact if_neg (Ne.symm hf)

/-- The SSRC 0x01020304 is read as 0x04000000, the count 5 changes the sequence number 7, and the
sequence number 7 changes the count. -/
theorem fields_dependent :
    get (Call.apply {} (.setSSRC 0x01020304)) .ssrc = 0x04000000 ∧
    get ((Block.setLastSeqNum {} 7).setLostCount 5) .lastSeqNum = 0x05000007 ∧
    get ((Block.setLostCount {} 5).setLastSeqNum 7) .lostCount = 0 ∧
    ¬ Independent {} [.setSSRC 0x01020304] ∧
    ¬ Independent {} [.setLastSeqNum 7, .setLostCount 5 (by decide)] ∧
    ¬ Independent {} [.setLostCount 5 (by decide), .setLastSeqNum 7] := by
  refine ⟨by decide, by decide, by decide, fun h ↦ ?_, fun h ↦ ?_, fun h ↦ ?_⟩
  · exact absurd (h.returns _ (List.prefix_refl _) .ssrc) (by decide)
  · exact absurd (h.returns _ (List.prefix_refl _) .lastSeqNum) (by decide)
  · exact absurd (h.returns _ (List.prefix_refl _) .lostCount) (by decide)

end Spadia.Rtcp.ReportBlock
