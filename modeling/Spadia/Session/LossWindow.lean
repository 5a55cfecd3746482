import Mathlib.Order.Bounds.Basic
import Spadia.Session.LostSession

namespace Spadia.Session.LossWindow

open Foundation SlidingWindow Rtp.Packet LostSession RTPLostSession

def cell (info : PacketInfo) : Cell :=
  match info.extSeq with
  | .ofNat n => if info.createdAtTime = 0 then .missing n else .present n
  | .negSucc _ => .vacant

def ring (s : RTPLostSession) : Fin 256 → Cell := fun j ↦ cell (s.packets.get j)

theorem cell_create (n : UInt32) (t : UInt64) :
    cell (PacketInfo.create n t) = if t = 0 then .missing n.toNat else .present n.toNat := rfl

theorem isCountInTotalLost_eq {info : PacketInfo} (h : -1 ≤ info.extSeq) :
    info.isCountInTotalLost = (cell info).isMissing := by
  unfold PacketInfo.isCountInTotalLost cell
  cases hn : info.extSeq with
  | ofNat n =>
    by_cases h0 : info.createdAtTime = 0
    · simp [h0]
    · simp [h0]
  | negSucc n =>
    have hneg : n = 0 := by omega
    simp [hneg]

theorem extSeq_eq_of_cell {info : PacketInfo} {n : ℕ} {b : Prop} [Decidable b]
    (h : cell info = if b then .present n else .missing n) :
    info.extSeq = n ∧ (info.createdAtTime = 0 ↔ ¬ b) := by
  unfold cell at h
  cases hn : info.extSeq with
  | negSucc m =>
    rw [hn] at h
    by_cases hb : b <;> simp [hb] at h
  | ofNat m =>
    rw [hn] at h
    by_cases hb : b <;> by_cases h0 : info.createdAtTime = 0 <;> simp_all

theorem get_store (s : RTPLostSession) (n : UInt32) (info : PacketInfo) (j : Fin 256) :
    (s.store n info).packets.get j =
      if j = slot 256 n.toNat then info else s.packets.get j := by
  change (s.packets.set (slot 256 n.toNat) info (slot 256 n.toNat).isLt)[j.val] = _
  rw [Vector.getElem_set]
  by_cases hj : j = slot 256 n.toNat
  · rw [if_pos (by rw [hj]), if_pos hj]
  · rw [if_neg fun h ↦ hj (Fin.ext h.symm), if_neg hj]
    rfl

theorem get_empty (j : Fin 256) : ({} : RTPLostSession).packets.get j = {} := by
  change (Vector.replicate 256 ({} : PacketInfo))[j.val] = _
  rw [Vector.getElem_replicate]

theorem ring_store (s : RTPLostSession) (n : UInt32) (info : PacketInfo) :
    ring (s.store n info) = Function.update (ring s) (slot 256 n.toNat) (cell info) := by
  funext j
  rw [ring, get_store, Function.update_apply, apply_ite cell]
  rfl

/-- The counter agrees with the slots, and no slot has a number below `-1`. -/
structure Counts (s : RTPLostSession) : Prop where
  numbered : ∀ j : Fin 256, -1 ≤ (s.packets.get j).extSeq
  totalLost_eq : s.totalLost.toNat = lostCount (ring s)

theorem lostCount_le (c : Fin 256 → Cell) : lostCount c ≤ 256 :=
  (Finset.card_le_univ _).trans_eq (Fintype.card_fin 256)

@[simp] theorem packets_uncover (s : RTPLostSession) (n : UInt32) :
    (s.uncover n).packets = s.packets := by
  unfold uncover
  split <;> rfl

@[simp] theorem nextSeq_uncover (s : RTPLostSession) (n : UInt32) :
    (s.uncover n).nextSeq = s.nextSeq := by
  unfold uncover
  split <;> rfl

theorem ring_congr {s s' : RTPLostSession} (h : s.packets = s'.packets) : ring s = ring s' := by
  funext j
  rw [ring, ring, h]

variable {s : RTPLostSession}

theorem Counts.totalLost_uncover (h : Counts s) (n : UInt32) :
    (s.uncover n).totalLost.toNat + (ring s (slot 256 n.toNat)).isMissing.toNat =
      s.totalLost.toNat := by
  have hcell : (s.packetAt n).isCountInTotalLost = (ring s (slot 256 n.toNat)).isMissing :=
    isCountInTotalLost_eq (h.numbered _)
  have hupdate := lostCount_update (ring s) (slot 256 n.toNat) .vacant
  have htotal := h.totalLost_eq
  unfold uncover
  rw [hcell]
  cases hm : (ring s (slot 256 n.toNat)).isMissing with
  | false => simp
  | true =>
    simp only [hm, isMissing_vacant, Bool.toNat_true, Bool.toNat_false, Nat.add_zero] at hupdate
    have hle : 1 ≤ s.totalLost := UInt16.le_iff_toNat_le.mpr (by simp; omega)
    simp only [if_true, Bool.toNat_true, UInt16.toNat_sub_of_le _ _ hle]
    simp
    omega

theorem ring_put (s : RTPLostSession) (n : UInt32) (info : PacketInfo) (next : UInt32)
    (total : UInt16) :
    ring { (s.uncover n).store n info with nextSeq := next, totalLost := total } =
      Function.update (ring s) (slot 256 n.toNat) (cell info) := by
  rw [← ring_store]
  exact ring_congr (by simp [store])

theorem Counts.put (h : Counts s) (n : UInt32) {info : PacketInfo} (hinfo : -1 ≤ info.extSeq)
    (next : UInt32) {total : UInt16}
    (htotal : total.toNat = (s.uncover n).totalLost.toNat + (cell info).isMissing.toNat) :
    Counts { (s.uncover n).store n info with nextSeq := next, totalLost := total } where
  numbered j := by
    change -1 ≤ (((s.uncover n).store n info).packets.get j).extSeq
    rw [get_store, packets_uncover]
    split
    · exact hinfo
    · exact h.numbered j
  totalLost_eq := by
    have hupdate := lostCount_update (ring s) (slot 256 n.toNat) (cell info)
    have huncover := h.totalLost_uncover n
    have hcount := h.totalLost_eq
    rw [ring_put, htotal]
    omega

/-- The session describes the numbers from `first` on of which those in `R` have come. -/
structure Tracks (s : RTPLostSession) (first : ℕ) (R : Finset ℕ) : Prop extends Counts s where
  first_le : first ≤ s.nextSeq.toNat
  represents : Represents first s.nextSeq.toNat R (ring s)
  received_lt : ∀ r ∈ R, r < s.nextSeq.toNat

theorem toNat_succ {n : UInt32} (h : n.toNat < 2 ^ 32 - 1) : (n + 1).toNat = n.toNat + 1 := by
  rw [UInt32.toNat_add]
  simp only [UInt32.reduceToNat]
  omega

theorem nextSeq_fill {extSeq : UInt32} (h : s.nextSeq ≤ extSeq) (now : UInt64) :
    (s.fill extSeq now).nextSeq = extSeq := by
  induction s using RTPLostSession.fill.induct extSeq now with
  | case1 s hlt ih =>
    have hlt' : s.nextSeq.toNat < extSeq.toNat := UInt32.lt_iff_toNat_lt.mp hlt
    have hnext := toNat_succ (n := s.nextSeq) (by have := extSeq.toNat_lt; omega)
    rw [RTPLostSession.fill, if_pos hlt]
    apply ih
    rw [UInt32.le_iff_toNat_le, hnext]
    exact hlt'
  | case2 s hlt =>
    rw [RTPLostSession.fill, if_neg hlt]
    exact UInt32.le_antisymm h (UInt32.not_lt.mp hlt)

variable {first : ℕ} {R : Finset ℕ}

theorem cell_received (n : UInt32) {t : UInt64} (ht : 0 < t) :
    cell (PacketInfo.create n t) = .present n.toNat := by
  rw [cell_create, if_neg (UInt64.pos_iff_ne_zero.mp ht)]

theorem Counts.receive (h : Counts s) (n : UInt32) {t : UInt64} (ht : 0 < t) (next : UInt32) :
    Counts { (s.uncover n).store n (PacketInfo.create n t) with nextSeq := next } := by
  refine h.put n (Int.negSucc_lt_zero 0 |>.le.trans (Int.natCast_nonneg _)) next ?_
  rw [cell_received n ht, isMissing_present]
  rfl

theorem Counts.lose (h : Counts s) (now : UInt64) :
    Counts { (s.uncover s.nextSeq).store s.nextSeq
        { PacketInfo.create s.nextSeq 0 with lossAtTime := now } with
      nextSeq := s.nextSeq + 1
      totalLost := (s.uncover s.nextSeq).totalLost + 1 } := by
  have huncover := h.totalLost_uncover s.nextSeq
  have hle := lostCount_le (ring s)
  have hcount := h.totalLost_eq
  refine h.put _ (Int.negSucc_lt_zero 0 |>.le.trans (Int.natCast_nonneg _)) _ ?_
  rw [UInt16.toNat_add]
  change (_ + 1) % 2 ^ 16 = _ + 1
  omega

namespace Tracks

theorem lose (h : Tracks s first R) (hnext : s.nextSeq.toNat < 2 ^ 32 - 1) (now : UInt64) :
    Tracks { (s.uncover s.nextSeq).store s.nextSeq
        { PacketInfo.create s.nextSeq 0 with lossAtTime := now } with
      nextSeq := s.nextSeq + 1
      totalLost := (s.uncover s.nextSeq).totalLost + 1 } first R where
  toCounts := h.toCounts.lose now
  first_le := by
    simp only [toNat_succ hnext]
    exact h.first_le.trans (Nat.le_succ _)
  represents := by
    have hR : s.nextSeq.toNat ∉ R := fun hmem ↦ (h.received_lt _ hmem).ne rfl
    have hadvance := h.represents.advance h.first_le (fun s _ ↦ Iff.rfl)
    rw [if_neg hR] at hadvance
    rw [ring_put]
    simp only [toNat_succ hnext]
    exact hadvance
  received_lt r hr := by
    simp only [toNat_succ hnext]
    exact (h.received_lt r hr).trans (Nat.lt_succ_self _)

theorem fill (h : Tracks s first R) (extSeq : UInt32) (now : UInt64) :
    Tracks (s.fill extSeq now) first R := by
  induction s using RTPLostSession.fill.induct extSeq now with
  | case1 s hlt ih =>
    have hlt' : s.nextSeq.toNat < extSeq.toNat := UInt32.lt_iff_toNat_lt.mp hlt
    have hnext : s.nextSeq.toNat < 2 ^ 32 - 1 := by have := extSeq.toNat_lt; omega
    rw [RTPLostSession.fill, if_pos hlt]
    exact ih (h.lose hnext now)
  | case2 s hlt =>
    rw [RTPLostSession.fill, if_neg hlt]
    exact h

theorem receive (h : Tracks s first R) (hnext : s.nextSeq.toNat < 2 ^ 32 - 1) {t : UInt64}
    (ht : 0 < t) :
    Tracks { (s.uncover s.nextSeq).store s.nextSeq (PacketInfo.create s.nextSeq t) with
      nextSeq := s.nextSeq + 1 } first (insert s.nextSeq.toNat R) where
  toCounts := h.toCounts.receive _ ht _
  first_le := by
    simp only [toNat_succ hnext]
    exact h.first_le.trans (Nat.le_succ _)
  represents := by
    have hR : ∀ r < s.nextSeq.toNat, r ∈ insert s.nextSeq.toNat R ↔ r ∈ R := by
      intro r hr
      simp [hr.ne]
    have hadvance := h.represents.advance h.first_le hR
    rw [if_pos (Finset.mem_insert_self _ _), ← cell_received s.nextSeq ht] at hadvance
    simp only [toNat_succ hnext]
    exact ring_put s s.nextSeq _ _ _ ▸ hadvance
  received_lt r hr := by
    simp only [toNat_succ hnext]
    obtain rfl | hr := Finset.mem_insert.mp hr
    · exact Nat.lt_succ_self _
    · exact (h.received_lt r hr).trans (Nat.lt_succ_self _)

theorem receive_late (h : Tracks s first R) {n : UInt32} (hlt : n.toNat < s.nextSeq.toNat)
    (hle : s.nextSeq.toNat ≤ n.toNat + 256) {t : UInt64} (ht : 0 < t) :
    Tracks ((s.uncover n).store n (PacketInfo.create n t)) first (insert n.toNat R) := by
  have hnext : ((s.uncover n).store n (PacketInfo.create n t)).nextSeq = s.nextSeq :=
    nextSeq_uncover s n
  refine ⟨h.toCounts.receive n ht _, by rw [hnext]; exact h.first_le, ?_, ?_⟩
  · have hlate := h.represents.late hlt hle
    rw [← cell_received n ht] at hlate
    rw [hnext]
    exact ring_put s n _ _ _ ▸ hlate
  · intro r hr
    rw [hnext]
    obtain rfl | hr := Finset.mem_insert.mp hr
    · exact hlt
    · exact h.received_lt r hr

end Tracks

theorem ring_empty : ring {} = fun _ ↦ .vacant := by
  funext j
  rw [ring, get_empty]
  rfl

theorem uncover_empty (n : UInt32) : uncover {} n = {} := by
  rw [uncover, packetAt, get_empty]
  rfl

theorem counts_empty : Counts {} where
  numbered j := by rw [get_empty]
  totalLost_eq := by simp [ring_empty, lostCount]

theorem tracks_first {n : UInt32} (hn : n.toNat < 2 ^ 32 - 1) {t : UInt64} (ht : 0 < t) :
    Tracks { store {} n (PacketInfo.create n t) with nextSeq := n + 1 } n.toNat {n.toNat} where
  toCounts := by
    have hcounts := counts_empty.receive n ht (n + 1)
    rwa [uncover_empty] at hcounts
  first_le := by
    simp only [toNat_succ hn]
    exact Nat.le_succ _
  represents := by
    have hring : ring { store {} n (PacketInfo.create n t) with nextSeq := n + 1 } =
        Function.update (fun _ ↦ .vacant) (slot 256 n.toNat) (.present n.toNat) := by
      rw [← cell_received n ht, ← ring_empty, ← ring_store]
      rfl
    rw [hring]
    simp only [toNat_succ hn]
    exact Represents.start n.toNat
  received_lt r hr := by
    rw [Finset.mem_singleton] at hr
    simp only [toNat_succ hn, hr]
    exact Nat.lt_succ_self _

/-- A packet with a receive time and a number below the last one, not older than the ring. -/
structure Acceptable (s : RTPLostSession) (p : RTPPacket) : Prop where
  recvTime_pos : 0 < p.recvTimeMS
  extSeq_lt : p.extSeqNum.toNat < 2 ^ 32 - 1
  late_le : p.extSeqNum < s.nextSeq → s.nextSeq.toNat - p.extSeqNum.toNat ≤ 256

variable {p : RTPPacket}

theorem addPacket_snd (s : RTPLostSession) (p : RTPPacket) :
    (s.addPacket p).2 = (s.addPacket p).1.totalLost := by
  simp only [addPacket]
  generalize (if s.Jumps p.extSeqNum then s.reset else s) = s
  split
  · rfl
  · split <;> rfl

theorem addPacket_restart (hs : s = {} ∨ s.Jumps p.extSeqNum) (hp : Acceptable s p) :
    Tracks (s.addPacket p).1 p.extSeqNum.toNat {p.extSeqNum.toNat} ∧
      (s.addPacket p).1.nextSeq.toNat = p.extSeqNum.toNat + 1 := by
  have hreset : (if s.Jumps p.extSeqNum then s.reset else s) = {} := by
    split
    · rfl
    · exact hs.resolve_right ‹_›
  have hadd : (s.addPacket p).1 = { store {} p.extSeqNum
      (PacketInfo.create p.extSeqNum p.recvTimeMS) with nextSeq := p.extSeqNum + 1 } := by
    simp only [addPacket, hreset, if_true]
  rw [hadd]
  exact ⟨tracks_first hp.extSeq_lt hp.recvTime_pos, toNat_succ hp.extSeq_lt⟩

theorem addPacket_future (h : Tracks s first R) (hnext : s.nextSeq ≠ 0)
    (hs : ¬ s.Jumps p.extSeqNum) (hle : s.nextSeq ≤ p.extSeqNum) (hp : Acceptable s p) :
    Tracks (s.addPacket p).1 first (insert p.extSeqNum.toNat R) ∧
      (s.addPacket p).1.nextSeq.toNat = p.extSeqNum.toNat + 1 := by
  have heq := nextSeq_fill hle p.recvTimeMS
  have hreceive := (h.fill p.extSeqNum p.recvTimeMS).receive (by rw [heq]; exact hp.extSeq_lt)
    hp.recvTime_pos
  simp only [heq] at hreceive
  simp only [addPacket, hs, hnext, hle, if_false, if_true, heq]
  exact ⟨hreceive, toNat_succ hp.extSeq_lt⟩

theorem addPacket_late (h : Tracks s first R) (hnext : s.nextSeq ≠ 0)
    (hlt : p.extSeqNum < s.nextSeq) (hp : Acceptable s p) :
    Tracks (s.addPacket p).1 first (insert p.extSeqNum.toNat R) ∧
      (s.addPacket p).1.nextSeq = s.nextSeq := by
  have hlt' := UInt32.lt_iff_toNat_lt.mp hlt
  have hlate := hp.late_le hlt
  have hs : ¬ s.Jumps p.extSeqNum := fun hj ↦ UInt32.lt_asymm hlt hj.1
  have hadd : (s.addPacket p).1 = (s.uncover p.extSeqNum).store p.extSeqNum
      (PacketInfo.create p.extSeqNum p.recvTimeMS) := by
    simp only [addPacket, hs, hnext, UInt32.not_le.mpr hlt, if_false]
  rw [hadd]
  exact ⟨h.receive_late hlt' (by omega) hp.recvTime_pos, nextSeq_uncover s _⟩

theorem addPacket_continue (h : Tracks s first R) (hnext : s.nextSeq ≠ 0)
    (hs : ¬ s.Jumps p.extSeqNum) (hp : Acceptable s p) :
    Tracks (s.addPacket p).1 first (insert p.extSeqNum.toNat R) ∧
      (s.addPacket p).1.nextSeq.toNat = max s.nextSeq.toNat (p.extSeqNum.toNat + 1) := by
  by_cases hle : s.nextSeq ≤ p.extSeqNum
  · obtain ⟨htracks, heq⟩ := addPacket_future h hnext hs hle hp
    have hle' := UInt32.le_iff_toNat_le.mp hle
    exact ⟨htracks, by omega⟩
  · have hlt := UInt32.not_le.mp hle
    obtain ⟨htracks, heq⟩ := addPacket_late h hnext hlt hp
    have hlt' := UInt32.lt_iff_toNat_lt.mp hlt
    exact ⟨htracks, by rw [heq]; omega⟩

/-- A run of `AddPacket` with what it has seen: the numbers of all packets, those since the
last jump, and the value returned last. -/
structure Run where
  session : RTPLostSession := {}
  added : List ℕ := []
  segment : List ℕ := []
  returned : UInt16 := 0

def Run.add (r : Run) (p : RTPPacket) : Run where
  session := (r.session.addPacket p).1
  added := r.added ++ [p.extSeqNum.toNat]
  segment := (if r.session.Jumps p.extSeqNum then [] else r.segment) ++ [p.extSeqNum.toNat]
  returned := (r.session.addPacket p).2

def run (pkts : List RTPPacket) : Run := pkts.foldl Run.add {}

def Acceptables (pkts : List RTPPacket) : Prop :=
  ∀ before p after, pkts = before ++ p :: after → Acceptable (run before).session p

theorem run_append (pkts : List RTPPacket) (p : RTPPacket) :
    run (pkts ++ [p]) = (run pkts).add p := by
  rw [run, List.foldl_append]
  rfl

theorem Acceptables.of_append {pkts : List RTPPacket} (h : Acceptables (pkts ++ [p])) :
    Acceptables pkts ∧ Acceptable (run pkts).session p :=
  ⟨fun before q after heq ↦ h before q (after ++ [p]) (by simp [heq]), h pkts p [] rfl⟩

theorem acceptables_append {pkts : List RTPPacket} (h : Acceptables pkts)
    (hp : Acceptable (run pkts).session p) : Acceptables (pkts ++ [p]) := by
  intro before q after heq
  obtain rfl | ⟨after', l, rfl⟩ := after.eq_nil_or_concat
  · obtain ⟨rfl, hq⟩ := List.append_inj' heq rfl
    rwa [← (List.cons.inj hq).1]
  · rw [List.concat_eq_append, ← List.cons_append, ← List.append_assoc] at heq
    exact h before q after' (List.append_inj' heq rfl).1

structure Follows (r : Run) (first : ℕ) : Prop where
  head_segment : r.segment.head? = some first
  tracks : Tracks r.session first r.segment.toFinset
  last_mem : ∃ m ∈ r.segment, r.session.nextSeq.toNat = m + 1
  added_lt : ∀ n ∈ r.added, n < r.session.nextSeq.toNat
  segment_subset : r.segment ⊆ r.added
  returned_eq : r.returned = r.session.totalLost

theorem follows_restart {r : Run} (hsession : r.session = {} ∨ r.session.Jumps p.extSeqNum)
    (hsegment : r.session.Jumps p.extSeqNum ∨ r.segment = [])
    (hadded : ∀ n ∈ r.added, n < p.extSeqNum.toNat + 1) (hp : Acceptable r.session p) :
    Follows (r.add p) p.extSeqNum.toNat := by
  obtain ⟨htracks, hnext⟩ := addPacket_restart hsession hp
  have hseg : (r.add p).segment = [p.extSeqNum.toNat] := by
    obtain hj | hnil := hsegment
    · simp [Run.add, hj]
    · simp [Run.add, hnil]
  refine ⟨by rw [hseg]; rfl, by rw [hseg]; exact htracks, ⟨_, by rw [hseg]; simp, hnext⟩, ?_, ?_,
    addPacket_snd _ _⟩
  · intro n hn
    simp only [Run.add, hnext]
    obtain hn | hn := List.mem_append.mp hn
    · exact hadded n hn
    · simp at hn
      omega
  · rw [hseg]
    simp [Run.add]

theorem Follows.continue {r : Run} (h : Follows r first) (hs : ¬ r.session.Jumps p.extSeqNum)
    (hp : Acceptable r.session p) : Follows (r.add p) first := by
  obtain ⟨m, hm, hmnext⟩ := h.last_mem
  -- `nextSeq` is one above a number of the segment, so the session is not taken for a new one.
  have hne : r.session.nextSeq ≠ 0 := by
    intro h0
    simp [h0] at hmnext
  obtain ⟨htracks, hnext⟩ := addPacket_continue h.tracks hne hs hp
  have hseg : (r.add p).segment = r.segment ++ [p.extSeqNum.toNat] := by simp [Run.add, hs]
  refine ⟨?_, ?_, ?_, ?_, ?_, addPacket_snd _ _⟩
  · rw [hseg, List.head?_append, h.head_segment, Option.some_or]
  · have hset : (r.add p).segment.toFinset = insert p.extSeqNum.toNat r.segment.toFinset := by
      rw [hseg, List.toFinset_append]
      simp
    rw [hset]
    exact htracks
  · rcases le_total (p.extSeqNum.toNat + 1) r.session.nextSeq.toNat with hle | hle
    · refine ⟨m, by rw [hseg]; exact List.mem_append_left _ hm, ?_⟩
      simp only [Run.add, hnext]
      omega
    · refine ⟨p.extSeqNum.toNat, by rw [hseg]; simp, ?_⟩
      simp only [Run.add, hnext]
      omega
  · intro n hn
    simp only [Run.add, hnext]
    obtain hn | hn := List.mem_append.mp hn
    · exact lt_max_of_lt_left (h.added_lt n hn)
    · simp at hn
      omega
  · intro n hn
    rw [hseg, List.mem_append] at hn
    exact List.mem_append.mpr (hn.imp (fun hn ↦ h.segment_subset hn) id)

/-- The run lemma: after the first packet there is always a segment that the session follows. -/
theorem run_follows {pkts : List RTPPacket} (h : Acceptables pkts) :
    pkts = [] ∨ ∃ first, Follows (run pkts) first := by
  induction pkts using List.reverseRecOn with
  | nil => exact .inl rfl
  | append_singleton pkts p ih =>
    obtain ⟨hpkts, hp⟩ := h.of_append
    rw [run_append]
    obtain rfl | ⟨first, hfirst⟩ := ih hpkts
    · exact .inr ⟨_, follows_restart (.inl rfl) (.inr rfl) (by simp [run]) hp⟩
    · by_cases hj : (run pkts).session.Jumps p.extSeqNum
      · refine .inr ⟨_, follows_restart (.inr hj) (.inl hj) (fun n hn ↦ ?_) hp⟩
        -- A jump goes above everything that was added before it.
        have hlt := hfirst.added_lt n hn
        have hgt := UInt32.lt_iff_toNat_lt.mp hj.1
        omega
      · exact .inr ⟨first, hfirst.continue hj hp⟩

/-- The specification over what a run has seen: `first` opened the current segment, and the
ring and the counter show the losses of the last 256 numbers from there on. -/
structure ShowsLosses (r : Run) (first : ℕ) : Prop where
  head_segment : r.segment.head? = some first
  nextSeq_eq : ∃ m, IsGreatest {n | n ∈ r.added} m ∧ r.session.nextSeq.toNat = m + 1
  slot_eq : ∀ s, max first (r.session.nextSeq.toNat - 256) ≤ s → s < r.session.nextSeq.toNat →
    (r.session.packets.get (slot 256 s)).extSeq = s ∧
      ((r.session.packets.get (slot 256 s)).createdAtTime = 0 ↔ s ∉ r.segment)
  totalLost_eq : r.session.totalLost.toNat =
    (lostSet 256 first r.session.nextSeq.toNat r.segment.toFinset).card
  returned_eq : r.returned = r.session.totalLost

theorem Follows.showsLosses {r : Run} (h : Follows r first) : ShowsLosses r first where
  head_segment := h.head_segment
  nextSeq_eq := by
    obtain ⟨m, hm, hnext⟩ := h.last_mem
    refine ⟨m, ⟨h.segment_subset hm, fun n hn ↦ ?_⟩, hnext⟩
    have hlt := h.added_lt n hn
    omega
  slot_eq s hle hlt := by
    have hcell := h.tracks.represents.cell_eq s ⟨(le_max_left _ _).trans hle, by omega, hlt⟩
    simpa using extSeq_eq_of_cell hcell
  totalLost_eq := by rw [h.tracks.totalLost_eq, h.tracks.represents.lostCount_eq]
  returned_eq := h.returned_eq

theorem Follows.nextSeq_congr {r r' : Run} {first' : ℕ} (h : Follows r first)
    (h' : Follows r' first') (hperm : r'.segment.Perm r.segment) :
    r'.session.nextSeq.toNat = r.session.nextSeq.toNat := by
  obtain ⟨m, hm, hnext⟩ := h.last_mem
  obtain ⟨m', hm', hnext'⟩ := h'.last_mem
  have hlt := h.added_lt m' (h.segment_subset (hperm.mem_iff.mp hm'))
  have hlt' := h'.added_lt m (h'.segment_subset (hperm.mem_iff.mpr hm))
  omega

theorem run_showsLosses {pkts : List RTPPacket} (h : Acceptables pkts) (hne : pkts ≠ []) :
    ∃ first, ShowsLosses (run pkts) first ∧
      ∀ pkts', Acceptables pkts' → (run pkts').segment.head? = some first →
        (run pkts').segment.Perm (run pkts).segment →
        (run pkts').session.nextSeq = (run pkts).session.nextSeq ∧
          (run pkts').returned = (run pkts).returned := by
  obtain ⟨first, hfollows⟩ := (run_follows h).resolve_left hne
  refine ⟨first, hfollows.showsLosses, fun pkts' h' hhead hperm ↦ ?_⟩
  have hne' : pkts' ≠ [] := by
    rintro rfl
    simp [run] at hhead
  obtain ⟨first', hfollows'⟩ := (run_follows h').resolve_left hne'
  have hfirst : first' = first := Option.some.inj (hfollows'.head_segment.symm.trans hhead)
  have hnext := hfollows.nextSeq_congr hfollows' hperm
  have hlost := hfollows'.showsLosses.totalLost_eq
  rw [hfirst, hnext, List.toFinset_eq_of_perm _ _ hperm,
    ← hfollows.showsLosses.totalLost_eq] at hlost
  refine ⟨UInt32.toNat_inj.mp hnext, ?_⟩
  rw [hfollows.returned_eq, hfollows'.returned_eq]
  exact UInt16.toNat_inj.mp hlost

def numbered (seqNum : UInt16) : RTPPacket := { (default : RTPPacket) with seqNum, recvTimeMS := 1 }

theorem gap_showsLosses : ∃ first, ShowsLosses (run [numbered 10, numbered 13, numbered 11]) first ∧
    ∀ pkts', Acceptables pkts' → (run pkts').segment.head? = some first →
      (run pkts').segment.Perm (run [numbered 10, numbered 13, numbered 11]).segment →
      (run pkts').session.nextSeq = (run [numbered 10, numbered 13, numbered 11]).session.nextSeq ∧
        (run pkts').returned = (run [numbered 10, numbered 13, numbered 11]).returned := by
  have h₀ : Acceptables [] := fun before q after heq ↦ by simp at heq
  have h₁ := acceptables_append h₀ (p := numbered 10)
    ⟨by decide, by decide, by decide⟩
  have h₂ := acceptables_append h₁ (p := numbered 13)
    ⟨by decide, by decide, by decide +kernel⟩
  have h₃ := acceptables_append h₂ (p := numbered 11)
    ⟨by decide, by decide, by decide +kernel⟩
  exact run_showsLosses h₃ (List.cons_ne_nil _ _)

end Spadia.Session.LossWindow
