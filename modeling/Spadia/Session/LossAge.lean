import Spadia.Session.LossWindow

namespace Spadia.Session.LossAge

open Foundation SlidingWindow Rtp.Packet LostSession RTPLostSession LossWindow

/-- A session with the packets it has had since the last jump. -/
structure Heard where
  session : RTPLostSession := {}
  segment : List RTPPacket := []

def Heard.add (h : Heard) (p : RTPPacket) : Heard where
  session := (h.session.addPacket p).1
  segment := (if h.session.Jumps p.extSeqNum then [] else h.segment) ++ [p]

def hear (pkts : List RTPPacket) : Heard := pkts.foldl Heard.add {}

theorem hear_append (pkts : List RTPPacket) (p : RTPPacket) :
    hear (pkts ++ [p]) = (hear pkts).add p := by
  rw [hear, List.foldl_append]
  rfl

theorem hear_eq_run (pkts : List RTPPacket) :
    (hear pkts).session = (run pkts).session ∧
      (hear pkts).segment.map (·.extSeqNum.toNat) = (run pkts).segment := by
  induction pkts using List.reverseRecOn with
  | nil => exact ⟨rfl, rfl⟩
  | append_singleton pkts p ih =>
    rw [hear_append, LossWindow.run_append]
    refine ⟨by simp only [Heard.add, Run.add, ih.1], ?_⟩
    simp only [Heard.add, Run.add, ih.1, List.map_append, List.map_cons, List.map_nil]
    split
    · rfl
    · rw [ih.2]

/-- The first packet of a segment that shows the number `n` to be missing. -/
def exposer (segment : List RTPPacket) (n : ℕ) : Option RTPPacket :=
  segment.find? fun p ↦ n < p.extSeqNum.toNat

theorem exposer_append {segment : List RTPPacket} {n : ℕ} {q : RTPPacket}
    (h : exposer segment n = some q) (p : RTPPacket) : exposer (segment ++ [p]) n = some q := by
  rw [exposer, List.find?_append]
  exact congrArg (Option.or · _) h

theorem exposer_append_of_lt {segment : List RTPPacket} {n : ℕ} {p : RTPPacket}
    (h : ∀ q ∈ segment, q.extSeqNum.toNat ≤ n) (hp : n < p.extSeqNum.toNat) :
    exposer (segment ++ [p]) n = some p := by
  have hnone : segment.find? (fun q ↦ decide (n < q.extSeqNum.toNat)) = none := by
    rw [List.find?_eq_none]
    intro q hq
    simpa using h q hq
  rw [exposer, List.find?_append, hnone, Option.none_or]
  simp [hp]

/-- A slot has had no request, and if it is marked missing it has the time of the packet that
exposed it. -/
structure Dated (segment : List RTPPacket) (info : PacketInfo) : Prop where
  sentAtTime_eq : info.sentAtTime = 0
  retry_eq : info.retry = 0
  lossAtTime_eq : ∀ n : ℕ, info.extSeq = n → info.createdAtTime = 0 →
    ∃ p, exposer segment n = some p ∧ info.lossAtTime = p.recvTimeMS

def AllDated (s : RTPLostSession) (segment : List RTPPacket) : Prop :=
  ∀ j : Fin 256, Dated segment (s.packets.get j)

theorem dated_empty (segment : List RTPPacket) : Dated segment {} :=
  ⟨rfl, rfl, fun n hn ↦ by simp at hn⟩

theorem Dated.append {segment : List RTPPacket} {info : PacketInfo} (h : Dated segment info)
    (p : RTPPacket) : Dated (segment ++ [p]) info where
  sentAtTime_eq := h.sentAtTime_eq
  retry_eq := h.retry_eq
  lossAtTime_eq n hn hcreated := by
    obtain ⟨q, hq, htime⟩ := h.lossAtTime_eq n hn hcreated
    exact ⟨q, exposer_append hq p, htime⟩

theorem dated_received (segment : List RTPPacket) (n : UInt32) {t : UInt64} (ht : 0 < t) :
    Dated segment (PacketInfo.create n t) :=
  ⟨rfl, rfl, fun _ _ h0 ↦ absurd h0 (UInt64.pos_iff_ne_zero.mp ht)⟩

theorem dated_missing {segment : List RTPPacket} {n : UInt32} {p : RTPPacket}
    (hp : exposer segment n.toNat = some p) :
    Dated segment { PacketInfo.create n 0 with lossAtTime := p.recvTimeMS } where
  sentAtTime_eq := rfl
  retry_eq := rfl
  lossAtTime_eq m hm _ := by
    have hm' : n.toNat = m := Int.ofNat.inj hm
    exact ⟨p, hm' ▸ hp, rfl⟩

variable {s : RTPLostSession} {segment : List RTPPacket} {p : RTPPacket}

theorem allDated_empty (segment : List RTPPacket) : AllDated {} segment := by
  intro j
  rw [get_empty]
  exact dated_empty segment

theorem AllDated.store (h : AllDated s segment) (n : UInt32) {info : PacketInfo}
    (hinfo : Dated segment info) : AllDated (s.store n info) segment := by
  intro j
  rw [get_store]
  split
  · exact hinfo
  · exact h j

theorem AllDated.uncover (h : AllDated s segment) (n : UInt32) :
    AllDated (s.uncover n) segment := by
  intro j
  rw [packets_uncover]
  exact h j

theorem AllDated.fill (h : AllDated s (segment ++ [p])) (hle : s.nextSeq ≤ p.extSeqNum)
    (hsegment : ∀ q ∈ segment, q.extSeqNum.toNat < s.nextSeq.toNat) :
    AllDated (s.fill p.extSeqNum p.recvTimeMS) (segment ++ [p]) := by
  induction s using RTPLostSession.fill.induct p.extSeqNum p.recvTimeMS with
  | case1 s hlt ih =>
    have hlt' : s.nextSeq.toNat < p.extSeqNum.toNat := UInt32.lt_iff_toNat_lt.mp hlt
    have hnext := toNat_succ (n := s.nextSeq) (by have := p.extSeqNum.toNat_lt; omega)
    have hexposer : exposer (segment ++ [p]) s.nextSeq.toNat = some p :=
      exposer_append_of_lt (fun q hq ↦ (hsegment q hq).le) hlt'
    rw [RTPLostSession.fill, if_pos hlt]
    apply ih
    · exact (h.uncover s.nextSeq).store s.nextSeq (dated_missing hexposer)
    · rw [UInt32.le_iff_toNat_le, hnext]
      exact hlt'
    · intro q hq
      rw [hnext]
      exact (hsegment q hq).trans (Nat.lt_succ_self _)
  | case2 s hlt =>
    rw [RTPLostSession.fill, if_neg hlt]
    exact h

/-- The step lemma. -/
theorem AllDated.addPacket (h : AllDated s segment) (hp : 0 < p.recvTimeMS)
    (hsegment : ∀ q ∈ segment, q.extSeqNum.toNat < s.nextSeq.toNat) :
    AllDated (s.addPacket p).1 ((if s.Jumps p.extSeqNum then [] else segment) ++ [p]) := by
  have hinfo (seg : List RTPPacket) := dated_received seg p.extSeqNum hp
  by_cases hj : s.Jumps p.extSeqNum
  · have hzero : s.reset.nextSeq = 0 := rfl
    simp only [RTPLostSession.addPacket, hj, if_true, hzero]
    exact (allDated_empty _).store _ (hinfo _)
  · have happend : AllDated s (segment ++ [p]) := fun j ↦ (h j).append p
    simp only [RTPLostSession.addPacket, hj, if_false]
    by_cases hzero : s.nextSeq = 0
    · rw [if_pos hzero]
      exact happend.store _ (hinfo _)
    · rw [if_neg hzero]
      by_cases hle : s.nextSeq ≤ p.extSeqNum
      · rw [if_pos hle]
        exact ((happend.fill hle hsegment).uncover _).store _ (hinfo _)
      · rw [if_neg hle]
        exact (happend.uncover _).store _ (hinfo _)

theorem hear_allDated {pkts : List RTPPacket} (h : Acceptables pkts) :
    AllDated (hear pkts).session (hear pkts).segment := by
  induction pkts using List.reverseRecOn with
  | nil => exact allDated_empty _
  | append_singleton pkts p ih =>
    obtain ⟨hpkts, hp⟩ := h.of_append
    obtain ⟨hsession, hsegment⟩ := hear_eq_run pkts
    rw [hear_append]
    refine (ih hpkts).addPacket hp.recvTime_pos ?_
    intro q hq
    have hmem : q.extSeqNum.toNat ∈ (run pkts).segment := by
      rw [← hsegment]
      exact List.mem_map_of_mem hq
    obtain rfl | ⟨first, hfirst⟩ := run_follows hpkts
    · cases hq
    · rw [hsession]
      exact hfirst.added_lt _ (hfirst.segment_subset hmem)

/-- A number that did not come, with its exposer more than the jitter time in the past and the
clock beyond the waiting time and the round trip. -/
def Overdue (segment : List RTPPacket) (now : UInt64) (rtt : UInt32) (n : ℕ) : Prop :=
  n ∉ segment.map (·.extSeqNum.toNat) ∧
    (∃ p, exposer segment n = some p ∧ now - p.recvTimeMS > PacketInfo.jitterTime) ∧
    now.toNat > max PacketInfo.nackWaitTime.toNat rtt.toNat

theorem isLost_iff {info : PacketInfo} (h : Dated segment info) {n : ℕ} (hn : info.extSeq = n)
    (hcreated : info.createdAtTime = 0 ↔ n ∉ segment.map (·.extSeqNum.toNat)) (now : UInt64)
    (rtt : UInt32) : info.isLost now rtt = true ↔ Overdue segment now rtt n := by
  have hne : (n : ℤ) ≠ -1 := by omega
  simp only [PacketInfo.isLost, decide_eq_true_eq, h.sentAtTime_eq, h.retry_eq, hn, hne, Overdue,
    ← hcreated, UInt64.sub_zero, ne_eq, not_false_eq_true, and_true]
  constructor
  · intro hlost
    obtain ⟨h0, hjitter, hwait, -⟩ := hlost
    obtain ⟨p, hp, htime⟩ := h.lossAtTime_eq n hn h0
    exact ⟨h0, ⟨p, hp, htime ▸ hjitter⟩, hwait⟩
  · intro hdue
    obtain ⟨h0, ⟨p, hp, hjitter⟩, hwait⟩ := hdue
    obtain ⟨q, hq, htime⟩ := h.lossAtTime_eq n hn h0
    obtain rfl : q = p := Option.some.inj (hq.symm.trans hp)
    exact ⟨h0, htime ▸ hjitter, hwait, by decide⟩

/-- After every accepted run the slots due for a request are those of the overdue numbers of
the window. -/
theorem isLost_iff_overdue {pkts : List RTPPacket} (h : Acceptables pkts) (hne : pkts ≠ []) :
    ∃ first, ((hear pkts).segment.map (·.extSeqNum.toNat)).head? = some first ∧
      ∀ (j : Fin 256) (now : UInt64) (rtt : UInt32),
        ((hear pkts).session.packets.get j).isLost now rtt = true ↔
          ∃ n, InWindow 256 first (hear pkts).session.nextSeq.toNat n ∧ slot 256 n = j ∧
            Overdue (hear pkts).segment now rtt n := by
  obtain ⟨hsession, hsegment⟩ := hear_eq_run pkts
  obtain ⟨first, hfollows⟩ := (run_follows h).resolve_left hne
  have hdated := hear_allDated h
  rw [hsession] at hdated ⊢
  have hslot (n : ℕ) (hw : InWindow 256 first (run pkts).session.nextSeq.toNat n)
      (now : UInt64) (rtt : UInt32) :
      ((run pkts).session.packets.get (slot 256 n)).isLost now rtt = true ↔
        Overdue (hear pkts).segment now rtt n := by
    obtain ⟨hn, hcreated⟩ := extSeq_eq_of_cell (hfollows.tracks.represents.cell_eq n hw)
    rw [List.mem_toFinset, ← hsegment] at hcreated
    exact isLost_iff (hdated _) hn hcreated now rtt
  refine ⟨first, by rw [hsegment]; exact hfollows.head_segment, fun j now rtt ↦ ⟨?_, ?_⟩⟩
  · intro hlost
    have hmissing : ((run pkts).session.packets.get j).isCountInTotalLost = true := by
      simp only [PacketInfo.isLost, decide_eq_true_eq] at hlost
      simp only [PacketInfo.isCountInTotalLost, decide_eq_true_eq]
      exact ⟨hlost.1, hlost.2.2.2.2⟩
    rw [isCountInTotalLost_eq (hfollows.tracks.numbered j)] at hmissing
    obtain ⟨n, hn⟩ : ∃ n, ring (run pkts).session j = .missing n := by
      change (ring (run pkts).session j).isMissing = true at hmissing
      cases hcell : ring (run pkts).session j with
      | vacant => simp [hcell] at hmissing
      | present n => simp [hcell] at hmissing
      | missing n => exact ⟨n, rfl⟩
    obtain ⟨hw, rfl⟩ := hfollows.tracks.represents.of_missing j n hn
    exact ⟨n, hw, rfl, (hslot n hw now rtt).mp hlost⟩
  · intro hdue
    obtain ⟨n, hw, rfl, hn⟩ := hdue
    exact (hslot n hw now rtt).mpr hn

/-- After 10 and 13, both received at 1, the number 11 is due at 30. -/
theorem gap_overdue :
    ((hear [numbered 10, numbered 13]).session.packets.get (slot 256 11)).isLost 30 0 = true := by
  have h₀ : Acceptables [] := fun before q after heq ↦ by simp at heq
  have h₁ := acceptables_append h₀ (p := numbered 10) ⟨by decide, by decide, by decide⟩
  have h₂ : Acceptables [numbered 10, numbered 13] :=
    acceptables_append h₁ ⟨by decide, by decide, by decide +kernel⟩
  obtain ⟨first, hhead, hiff⟩ := isLost_iff_overdue h₂ (List.cons_ne_nil _ _)
  have hsegment : (hear [numbered 10, numbered 13]).segment = [numbered 10, numbered 13] := rfl
  have hfirst : first = 10 := by
    rw [hsegment] at hhead
    exact (Option.some.inj hhead).symm
  have hnext : (hear [numbered 10, numbered 13]).session.nextSeq.toNat = 14 := by decide +kernel
  refine (hiff _ 30 0).mpr ⟨11, ?_, rfl, ?_⟩
  · rw [hfirst, hnext]
    exact ⟨by decide, by decide, by decide⟩
  · rw [hsegment]
    exact ⟨by decide, ⟨numbered 13, rfl, by decide⟩, by decide⟩

end Spadia.Session.LossAge
