import Spadia.Session.LossWindow

namespace Spadia.Session.LossCounter

open Foundation SlidingWindow Rtp.Packet LostSession RTPLostSession LossWindow

/-- What can go wrong in a call: a decrement of zero, one of the two assertions, or a gap loop
of more than 254 rounds. -/
inductive Violation
  | underflow
  | nextSeqAssertion
  | totalLostAssertion
  | longGap
deriving DecidableEq, Repr

def uncoverChecked (s : RTPLostSession) (n : UInt32) : Except Violation RTPLostSession :=
  if (s.packetAt n).isCountInTotalLost then
    if s.totalLost = 0 then throw .underflow
    else return { s with totalLost := s.totalLost - 1 }
  else return s

def fillChecked (extSeq : UInt32) (now : UInt64) :
    ℕ → RTPLostSession → Except Violation RTPLostSession
  | 0, s => if s.nextSeq < extSeq then throw .longGap else return s
  | rounds + 1, s =>
    if s.nextSeq < extSeq then do
      let u ← uncoverChecked s s.nextSeq
      fillChecked extSeq now rounds
        { u.store s.nextSeq { PacketInfo.create s.nextSeq 0 with lossAtTime := now } with
          nextSeq := s.nextSeq + 1
          totalLost := u.totalLost + 1 }
    else return s

def assertTotalLost (s : RTPLostSession) : Except Violation (RTPLostSession × UInt16) :=
  if s.totalLost ≤ 256 then return (s, s.totalLost) else throw .totalLostAssertion

/-- `AddPacket` with its assertions. -/
def addPacketChecked (s : RTPLostSession) (packet : RTPPacket) :
    Except Violation (RTPLostSession × UInt16) := do
  let extSeq := packet.extSeqNum
  let info := PacketInfo.create extSeq packet.recvTimeMS
  let s := if s.Jumps extSeq then s.reset else s
  if s.nextSeq = 0 then
    return ({ s.store extSeq info with nextSeq := extSeq + 1 }, s.totalLost)
  else if s.nextSeq ≤ extSeq then do
    let s ← fillChecked extSeq packet.recvTimeMS 254 s
    if s.nextSeq = extSeq then do
      let u ← uncoverChecked s extSeq
      assertTotalLost { u.store extSeq info with nextSeq := s.nextSeq + 1 }
    else throw .nextSeqAssertion
  else do
    let u ← uncoverChecked s extSeq
    assertTotalLost (u.store extSeq info)

/-- The counter agrees with the slots, and a session that has no next number is empty. -/
structure Sound (s : RTPLostSession) : Prop extends Counts s where
  empty : s.nextSeq = 0 → s = {}

def lostSlots (s : RTPLostSession) : ℕ :=
  (Finset.univ.filter fun j : Fin 256 ↦ (s.packets.get j).isCountInTotalLost).card

variable {s : RTPLostSession} {p : RTPPacket}

theorem totalLost_eq_lostSlots (h : Counts s) : s.totalLost.toNat = lostSlots s := by
  rw [h.totalLost_eq, lostCount, lostSlots]
  refine congrArg Finset.card (Finset.filter_congr ?_)
  intro j _
  rw [ring, isCountInTotalLost_eq (h.numbered j)]

theorem totalLost_le (h : Counts s) : s.totalLost ≤ 256 := by
  have hle := lostCount_le (ring s)
  rw [← h.totalLost_eq] at hle
  exact UInt16.le_iff_toNat_le.mpr hle

theorem uncoverChecked_eq (h : Counts s) (n : UInt32) :
    uncoverChecked s n = .ok (s.uncover n) := by
  unfold uncoverChecked uncover
  by_cases hcount : (s.packetAt n).isCountInTotalLost
  · have hpos : s.totalLost ≠ 0 := by
      intro hzero
      have hmem : slot 256 n.toNat ∈
          Finset.univ.filter fun j : Fin 256 ↦ (s.packets.get j).isCountInTotalLost :=
        Finset.mem_filter.mpr ⟨Finset.mem_univ _, hcount⟩
      have hslots := totalLost_eq_lostSlots h
      rw [hzero] at hslots
      exact Finset.card_ne_zero_of_mem hmem hslots.symm
    rw [if_pos hcount, if_neg hpos, if_pos hcount]
    rfl
  · rw [if_neg hcount, if_neg hcount]
    rfl

theorem assertTotalLost_eq (h : Counts s) : assertTotalLost s = .ok (s, s.totalLost) :=
  if_pos (totalLost_le h)

theorem fillChecked_eq (h : Counts s) {extSeq : UInt32} (now : UInt64) {rounds : ℕ}
    (hgap : extSeq.toNat - s.nextSeq.toNat ≤ rounds) :
    fillChecked extSeq now rounds s = .ok (s.fill extSeq now) ∧ Counts (s.fill extSeq now) := by
  induction rounds generalizing s with
  | zero =>
    have hlt : ¬ s.nextSeq < extSeq := by
      rw [UInt32.lt_iff_toNat_lt]
      omega
    rw [fillChecked, if_neg hlt, fill, if_neg hlt]
    exact ⟨rfl, h⟩
  | succ rounds ih =>
    by_cases hlt : s.nextSeq < extSeq
    · have hlt' := UInt32.lt_iff_toNat_lt.mp hlt
      have hnext := toNat_succ (n := s.nextSeq) (by have := extSeq.toNat_lt; omega)
      rw [fillChecked, if_pos hlt, uncoverChecked_eq h, fill, if_pos hlt]
      apply ih (h.lose now)
      rw [hnext]
      omega
    · rw [fillChecked, if_neg hlt, fill, if_neg hlt]
      exact ⟨rfl, h⟩

/-- A packet that has a receive time and not the last number. -/
structure Valid (p : RTPPacket) : Prop where
  recvTime_pos : 0 < p.recvTimeMS
  extSeq_lt : p.extSeqNum.toNat < 2 ^ 32 - 1

theorem succ_ne_zero {n : UInt32} (h : n.toNat < 2 ^ 32 - 1) : n + 1 ≠ 0 := by
  intro hzero
  have hnat := congrArg UInt32.toNat hzero
  rw [toNat_succ h] at hnat
  simp at hnat

theorem sound_empty : Sound {} := ⟨counts_empty, fun _ ↦ rfl⟩

theorem gap_le {extSeq : UInt32} (h : ¬ s.Jumps extSeq) (hle : s.nextSeq ≤ extSeq) :
    extSeq.toNat - s.nextSeq.toNat ≤ 254 := by
  by_contra hgap
  have hle' := UInt32.le_iff_toNat_le.mp hle
  refine h ⟨UInt32.lt_iff_toNat_lt.mpr (by omega), UInt32.le_iff_toNat_le.mpr ?_⟩
  rw [UInt32.toNat_sub_of_le _ _ hle]
  change 255 ≤ _
  omega

theorem Sound.first (hp : Valid p) :
    Sound { store {} p.extSeqNum (PacketInfo.create p.extSeqNum p.recvTimeMS) with
      nextSeq := p.extSeqNum + 1 } where
  toCounts := (tracks_first hp.extSeq_lt hp.recvTime_pos).toCounts
  empty h := absurd h (succ_ne_zero hp.extSeq_lt)

theorem addPacketChecked_settled (h : Sound s) (hp : Valid p) (hs : ¬ s.Jumps p.extSeqNum) :
    addPacketChecked s p = .ok (s.addPacket p) ∧ Sound (s.addPacket p).1 := by
  by_cases h0 : s.nextSeq = 0
  · obtain rfl := h.empty h0
    simp only [addPacketChecked, addPacket, hs, if_false, if_true]
    exact ⟨rfl, Sound.first hp⟩
  · by_cases hle : s.nextSeq ≤ p.extSeqNum
    · obtain ⟨hfill, hcounts⟩ := fillChecked_eq h.toCounts p.recvTimeMS (gap_le hs hle)
      have hnext := nextSeq_fill hle p.recvTimeMS
      have hreceive := hcounts.receive p.extSeqNum hp.recvTime_pos (p.extSeqNum + 1)
      simp only [addPacketChecked, addPacket, hs, h0, hle, if_false, if_true, hfill, hnext]
      refine ⟨?_, hreceive, fun hzero ↦ absurd hzero (succ_ne_zero hp.extSeq_lt)⟩
      have hchecked : uncoverChecked (s.fill p.extSeqNum p.recvTimeMS) p.extSeqNum =
          .ok ((s.fill p.extSeqNum p.recvTimeMS).uncover p.extSeqNum) := uncoverChecked_eq hcounts _
      have hassert := assertTotalLost_eq hreceive
      simp only [bind, Except.bind, hnext, if_true, hchecked, hassert]
    · have hreceive := h.toCounts.receive p.extSeqNum hp.recvTime_pos (s.uncover p.extSeqNum).nextSeq
      simp only [addPacketChecked, addPacket, hs, h0, hle, if_false, uncoverChecked_eq h.toCounts]
      refine ⟨assertTotalLost_eq hreceive, hreceive, fun hzero ↦ absurd ?_ h0⟩
      exact (nextSeq_uncover s _).symm.trans hzero

theorem addPacketChecked_eq (h : Sound s) (hp : Valid p) :
    addPacketChecked s p = .ok (s.addPacket p) ∧ Sound (s.addPacket p).1 := by
  by_cases hs : s.Jumps p.extSeqNum
  · simp only [addPacketChecked, addPacket, hs, if_true, reset]
    exact ⟨rfl, Sound.first hp⟩
  · exact addPacketChecked_settled h hp hs

inductive Call
  | addPacket (p : RTPPacket)
  | reset

namespace Call

def Allowed : Call → Prop
  | addPacket p => Valid p
  | reset => True

def perform (s : RTPLostSession) : Call → RTPLostSession
  | addPacket p => (s.addPacket p).1
  | reset => s.reset

def performChecked (s : RTPLostSession) : Call → Except Violation RTPLostSession
  | addPacket p => (addPacketChecked s p).map Prod.fst
  | reset => return s.reset

theorem performChecked_eq (h : Sound s) {c : Call} (hc : c.Allowed) :
    performChecked s c = .ok (perform s c) ∧ Sound (perform s c) := by
  cases c with
  | addPacket p =>
    obtain ⟨hchecked, hsound⟩ := addPacketChecked_eq h hc
    rw [performChecked, hchecked]
    exact ⟨rfl, hsound⟩
  | reset => exact ⟨rfl, sound_empty⟩

end Call

open Call (perform performChecked performChecked_eq)

theorem run_sound (h : Sound s) {calls : List Call} (hcalls : ∀ c ∈ calls, c.Allowed) :
    calls.foldlM performChecked s = .ok (calls.foldl perform s) ∧
      Sound (calls.foldl perform s) := by
  induction calls generalizing s with
  | nil => exact ⟨rfl, h⟩
  | cons c calls ih =>
    rw [List.forall_mem_cons] at hcalls
    obtain ⟨hchecked, hsound⟩ := performChecked_eq h hcalls.1
    obtain ⟨hrun, hend⟩ := ih hsound hcalls.2
    rw [List.foldlM_cons, hchecked]
    exact ⟨hrun, hend⟩

/-- No call of a run goes wrong, and after each the counter is the number of lost slots. -/
theorem run_counted (calls : List Call) (hcalls : ∀ c ∈ calls, c.Allowed) :
    ∃ s, calls.foldlM performChecked {} = .ok s ∧ s = calls.foldl perform {} ∧
      s.packets.toList.length = 256 ∧ s.totalLost.toNat = lostSlots s := by
  obtain ⟨hrun, hsound⟩ := run_sound sound_empty hcalls
  exact ⟨_, hrun, rfl, Vector.length_toList, totalLost_eq_lostSlots hsound.toCounts⟩

def mixedCalls : List Call :=
  [.addPacket (numbered 300), .addPacket (numbered 302), .addPacket (numbered 45), .reset,
    .addPacket (numbered 7)]

theorem mixedCalls_counted : (∀ c ∈ mixedCalls, c.Allowed) ∧
    ∃ s, mixedCalls.foldlM performChecked {} = .ok s ∧ s = mixedCalls.foldl perform {} ∧
      s.packets.toList.length = 256 ∧ s.totalLost.toNat = lostSlots s := by
  have hcalls : ∀ c ∈ mixedCalls, c.Allowed := by
    simp only [mixedCalls, List.forall_mem_cons, List.not_mem_nil, false_implies, implies_true,
      and_true]
    exact ⟨⟨by decide, by decide⟩, ⟨by decide, by decide⟩, ⟨by decide, by decide⟩, trivial,
      ⟨by decide, by decide⟩⟩
  exact ⟨hcalls, run_counted mixedCalls hcalls⟩

section Stale

theorem addPacket_late_eq (hlt : p.extSeqNum < s.nextSeq) :
    (s.addPacket p).1 = (s.uncover p.extSeqNum).store p.extSeqNum
      (PacketInfo.create p.extSeqNum p.recvTimeMS) := by
  have hs : ¬ s.Jumps p.extSeqNum := fun hj ↦ UInt32.lt_asymm hlt hj.1
  have hnext : s.nextSeq ≠ 0 := by
    intro hzero
    rw [hzero] at hlt
    exact UInt32.not_lt_zero hlt
  simp only [addPacket, hs, hnext, UInt32.not_le.mpr hlt, if_false]

/-- The packet is too old for the ring to describe it. -/
structure Stale (s : RTPLostSession) (p : RTPPacket) : Prop where
  lt : p.extSeqNum < s.nextSeq
  old : 256 < s.nextSeq.toNat - p.extSeqNum.toNat

structure Unchanged (s s' : RTPLostSession) : Prop where
  packets : s'.packets = s.packets
  totalLost : s'.totalLost = s.totalLost
  nextSeq : s'.nextSeq = s.nextSeq

theorem packetAt_store (s : RTPLostSession) (n : UInt32) (info : PacketInfo) :
    (s.store n info).packetAt n = info := by
  rw [packetAt, get_store, if_pos rfl]

theorem packets_store_packetAt (s : RTPLostSession) (n : UInt32) :
    (s.store n (s.packetAt n)).packets = s.packets :=
  Vector.set_getElem_self _

theorem isCountInTotalLost_create (n : UInt32) (t : UInt64) :
    (PacketInfo.create n t).isCountInTotalLost = decide (t = 0) := by
  have hnat : ((n.toNat : ℕ) : ℤ) ≠ -1 := by omega
  simp [PacketInfo.isCountInTotalLost, PacketInfo.create, hnat]

/-- A stale packet is stored over whatever its slot holds, so that nothing changes only where
the slot holds that packet already. -/
theorem stale_unchanged_iff (s : RTPLostSession) (p : RTPPacket) (h : Stale s p) :
    Unchanged s (s.addPacket p).1 ↔
      s.packetAt p.extSeqNum = PacketInfo.create p.extSeqNum p.recvTimeMS ∧ p.recvTimeMS ≠ 0 := by
  rw [addPacket_late_eq h.lt]
  constructor
  · intro hsame
    have hslot : s.packetAt p.extSeqNum = PacketInfo.create p.extSeqNum p.recvTimeMS := by
      rw [packetAt, ← hsame.packets]
      exact packetAt_store _ _ _
    refine ⟨hslot, ?_⟩
    intro hzero
    have hcount : (s.packetAt p.extSeqNum).isCountInTotalLost = true := by
      rw [hslot, isCountInTotalLost_create, decide_eq_true hzero]
    have htotal : s.totalLost - 1 = s.totalLost := by
      have huncover := hsame.totalLost
      rwa [uncover, if_pos hcount] at huncover
    have hnat := congrArg UInt16.toNat htotal
    have hlt := s.totalLost.toNat_lt
    rw [UInt16.toNat_sub] at hnat
    simp only [UInt16.reduceToNat] at hnat
    omega
  · intro hslot
    have hcount : (s.packetAt p.extSeqNum).isCountInTotalLost = false := by
      rw [hslot.1, isCountInTotalLost_create, decide_eq_false hslot.2]
    have huncover : s.uncover p.extSeqNum = s := by
      rw [uncover, hcount]
      rfl
    rw [huncover, ← hslot.1]
    exact ⟨packets_store_packetAt s _, rfl, rfl⟩

def lostThenStale : RTPLostSession :=
  [Call.addPacket (numbered 300), .addPacket (numbered 302)].foldl perform {}

theorem stale_clears_loss : Stale lostThenStale (numbered 45) ∧
    lostThenStale.totalLost = 1 ∧ (lostThenStale.packetAt 301).extSeq = 301 ∧
    (lostThenStale.addPacket (numbered 45)).1.totalLost = 0 ∧
    ¬ Unchanged lostThenStale (lostThenStale.addPacket (numbered 45)).1 := by
  have hbefore : lostThenStale.totalLost = 1 := by decide +kernel
  have hafter : (lostThenStale.addPacket (numbered 45)).1.totalLost = 0 := by decide +kernel
  refine ⟨⟨by decide +kernel, by decide +kernel⟩, hbefore, by decide +kernel, hafter, ?_⟩
  intro h
  have htotal := h.totalLost
  rw [hbefore, hafter] at htotal
  exact absurd htotal (by decide)

theorem stale_repeated : Stale (lostThenStale.addPacket (numbered 45)).1 (numbered 45) ∧
    Unchanged (lostThenStale.addPacket (numbered 45)).1
      ((lostThenStale.addPacket (numbered 45)).1.addPacket (numbered 45)).1 := by
  have hstale : Stale (lostThenStale.addPacket (numbered 45)).1 (numbered 45) :=
    ⟨by decide +kernel, by decide +kernel⟩
  exact ⟨hstale, (stale_unchanged_iff _ _ hstale).mpr ⟨by decide +kernel, by decide⟩⟩

end Stale

end Spadia.Session.LossCounter
