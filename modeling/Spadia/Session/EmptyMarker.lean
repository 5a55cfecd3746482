import Spadia.Session.LossCounter

namespace Spadia.Session.EmptyMarker

open Rtp.Packet LostSession RTPLostSession LossWindow LossCounter
open LossCounter.Call (perform)

variable {s : RTPLostSession} {p : RTPPacket} {calls : List Call}

def stateAfter (calls : List Call) : RTPLostSession := calls.foldl perform {}

/-- The session behind the jump check of `AddPacket`, where `nextSeq` decides what to do. -/
def settled (s : RTPLostSession) (p : RTPPacket) : RTPLostSession :=
  if s.Jumps p.extSeqNum then s.reset else s

def TakesFirst (s : RTPLostSession) (p : RTPPacket) : Prop := (settled s p).nextSeq = 0

/-- No packet has been added since the construction or the last reset. -/
def Fresh (calls : List Call) : Prop := ∀ p, calls.getLast? ≠ some (.addPacket p)

/-- Zero stands for the empty ring all along the run: the branch of the first packet meets no
record, and no loss that was counted. -/
structure Faithful (calls : List Call) : Prop where
  marker : ∀ cs, cs <+: calls → (stateAfter cs).nextSeq = 0 → Fresh cs
  unrecorded : ∀ cs p, cs ++ [.addPacket p] <+: calls → TakesFirst (stateAfter cs) p →
    ∀ j, ((settled (stateAfter cs) p).packets.get j).extSeq = -1
  adjusted : ∀ cs p, cs ++ [.addPacket p] <+: calls → TakesFirst (stateAfter cs) p →
    ((settled (stateAfter cs) p).packetAt p.extSeqNum).isCountInTotalLost = false

theorem stateAfter_concat (cs : List Call) (p : RTPPacket) :
    stateAfter (cs ++ [.addPacket p]) = ((stateAfter cs).addPacket p).1 := by
  rw [stateAfter, List.foldl_append]
  rfl

theorem succ_eq_zero_iff (n : UInt32) : n + 1 = 0 ↔ n = 0xFFFFFFFF := by
  constructor
  · intro h
    have hmax : (0 : UInt32) = 0xFFFFFFFF + 1 := by decide
    exact (UInt32.add_left_inj 1).mp (h.trans hmax)
  · rintro rfl
    rfl

theorem nextSeq_addPacket_eq_zero_iff (s : RTPLostSession) (p : RTPPacket) :
    (s.addPacket p).1.nextSeq = 0 ↔ p.extSeqNum = 0xFFFFFFFF := by
  simp only [addPacket]
  generalize (if s.Jumps p.extSeqNum then s.reset else s) = s
  by_cases h0 : s.nextSeq = 0
  · simp only [h0, if_true]
    exact succ_eq_zero_iff _
  · by_cases hle : s.nextSeq ≤ p.extSeqNum
    · simp only [h0, hle, if_true, if_false, nextSeq_fill hle]
      exact succ_eq_zero_iff _
    · simp only [h0, hle, if_false]
      -- A late packet has a number below another one.
      refine iff_of_false (fun h ↦ h0 ((nextSeq_uncover s _).symm.trans h)) ?_
      intro hmax
      apply hle
      rw [hmax, UInt32.le_iff_toNat_le]
      exact Nat.le_of_lt_succ s.nextSeq.toNat_lt

theorem settled_eq_empty (h : Sound s) (hfirst : TakesFirst s p) : settled s p = {} := by
  unfold TakesFirst settled at *
  split at hfirst
  case isTrue hj => rw [if_pos hj, reset]
  case isFalse hj => rw [if_neg hj, h.empty hfirst]

theorem sound_stateAfter (h : ∀ p, Call.addPacket p ∈ calls → Valid p) :
    Sound (stateAfter calls) := by
  refine (run_sound sound_empty fun c hc ↦ ?_).2
  cases c with
  | addPacket p => exact h p hc
  | reset => trivial

theorem valid_of_ne (htime : 0 < p.recvTimeMS) (h : p.extSeqNum ≠ 0xFFFFFFFF) : Valid p := by
  refine ⟨htime, ?_⟩
  have hlt := p.extSeqNum.toNat_lt
  have hne : p.extSeqNum.toNat ≠ 2 ^ 32 - 1 := fun heq ↦ h (UInt32.toNat_inj.mp heq)
  omega

/-- Zero is a faithful marker of the empty ring exactly in the runs without the number
`2 ^ 32 - 1`. -/
theorem marker_faithful_iff (calls : List Call)
    (htime : ∀ p, Call.addPacket p ∈ calls → 0 < p.recvTimeMS) :
    Faithful calls ↔ ∀ p, Call.addPacket p ∈ calls → p.extSeqNum ≠ 0xFFFFFFFF := by
  constructor
  · intro h p hp hmax
    obtain ⟨cs, rest, rfl⟩ := List.append_of_mem hp
    have hprefix : cs ++ [.addPacket p] <+: cs ++ .addPacket p :: rest := ⟨rest, by simp⟩
    have hzero : (stateAfter (cs ++ [.addPacket p])).nextSeq = 0 := by
      rw [stateAfter_concat, nextSeq_addPacket_eq_zero_iff, hmax]
    exact h.marker _ hprefix hzero p (by simp)
  · intro h
    have hsound {cs : List Call} (hcs : cs <+: calls) : Sound (stateAfter cs) :=
      sound_stateAfter fun p hp ↦ valid_of_ne (htime p (hcs.mem hp)) (h p (hcs.mem hp))
    have hempty {cs : List Call} {p : RTPPacket} (hcs : cs ++ [.addPacket p] <+: calls)
        (hfirst : TakesFirst (stateAfter cs) p) : settled (stateAfter cs) p = {} :=
      settled_eq_empty (hsound ((List.prefix_append cs _).trans hcs)) hfirst
    refine ⟨fun cs hcs hzero p hlast ↦ ?_, fun cs p hcs hfirst j ↦ ?_, fun cs p hcs hfirst ↦ ?_⟩
    · obtain ⟨cs, rfl⟩ := List.getLast?_eq_some_iff.mp hlast
      rw [stateAfter_concat, nextSeq_addPacket_eq_zero_iff] at hzero
      exact h p (hcs.mem (by simp)) hzero
    · rw [hempty hcs hfirst, get_empty]
    · rw [hempty hcs hfirst, packetAt, get_empty]
      rfl

def extended (n : UInt32) : RTPPacket :=
  { (default : RTPPacket) with
    seqCycle := (n >>> 16).toUInt16
    seqNum := n.toUInt16
    recvTimeMS := 1 }

theorem marker_faithful_reset :
    Faithful [.addPacket (extended 7), .reset, .addPacket (extended 0xFFFFFFFE)] := by
  refine (marker_faithful_iff _ ?_).mpr ?_
  · intro p hp
    simp only [List.mem_cons, Call.addPacket.injEq, reduceCtorEq, List.not_mem_nil, or_false,
      false_or] at hp
    obtain rfl | rfl := hp <;> decide
  · intro p hp
    simp only [List.mem_cons, Call.addPacket.injEq, reduceCtorEq, List.not_mem_nil, or_false,
      false_or] at hp
    obtain rfl | rfl := hp <;> decide

/-- The number `2 ^ 32 - 2` is lost, and the last one of all has come. -/
def wrapped : List Call := [.addPacket (extended 0xFFFFFFFD), .addPacket (extended 0xFFFFFFFF)]

/-- The packet 254 is taken for the first one. It overwrites the record of the loss, which stays
counted. -/
theorem wrapped_not_faithful : (extended 0xFFFFFFFF).extSeqNum = 0xFFFFFFFF ∧
    (stateAfter wrapped).nextSeq = 0 ∧ TakesFirst (stateAfter wrapped) (extended 254) ∧
    ((settled (stateAfter wrapped) (extended 254)).packetAt 254).isCountInTotalLost = true ∧
    lostSlots (stateAfter (wrapped ++ [.addPacket (extended 254)])) = 0 ∧
    (stateAfter (wrapped ++ [.addPacket (extended 254)])).totalLost = 1 ∧
    ¬ Faithful (wrapped ++ [.addPacket (extended 254)]) := by
  have hfirst : TakesFirst (stateAfter wrapped) (extended 254) := by
    unfold TakesFirst
    decide +kernel
  have hlost : ((settled (stateAfter wrapped) (extended 254)).packetAt
      254).isCountInTotalLost = true := by decide +kernel
  have hnone : ∀ info ∈ (stateAfter (wrapped ++ [.addPacket (extended 254)])).packets.toList,
      info.isCountInTotalLost = false := by decide +kernel
  have hslots : lostSlots (stateAfter (wrapped ++ [.addPacket (extended 254)])) = 0 := by
    rw [lostSlots, Finset.card_eq_zero, Finset.filter_eq_empty_iff]
    intro j _
    rw [Bool.not_eq_true]
    exact hnone _ (Vector.mem_toList_iff.mpr (Vector.getElem_mem j.isLt))
  refine ⟨by decide, by decide +kernel, hfirst, hlost, hslots, by decide +kernel, ?_⟩
  intro h
  have hfalse := h.adjusted wrapped _ (List.prefix_refl _) hfirst
  have hnumber : (extended 254).extSeqNum = 254 := by decide
  rw [hnumber, hlost] at hfalse
  cases hfalse

end Spadia.Session.EmptyMarker
