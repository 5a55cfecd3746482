import Mathlib.Algebra.Order.Group.Multiset
import Spadia.System.BufferLedger
import Spadia.System.StunExchange

namespace Spadia.System.Forwarding

open Foundation TracedRead Read LabelledRun Rtcp Stun.Packet Peer.Connection PeerConnection
open Network State BufferLedger

def mediaSent (s : State) (v : Address) : Multiset (List UInt8) :=
  ((s.sent.filter fun e ↦ e.sender = v ∧ e.cause = none).map Sent.bytes : List (List UInt8))

def queued (s : State) (v : Address) : Multiset (List UInt8) :=
  ((s.tasks.filter fun t ↦ t.sink = v).map fun t ↦ (s.contents t.buffer).take t.size :
    List (List UInt8))

/-- The viewers of the stream that a delivered datagram is media of. -/
def viewers (s : State) (d : Datagram) (tail : Memory) : List Address :=
  match s.peers d.dest with
  | none => []
  | some pc =>
    if d.bytes = [] ∨ isStun.value (received d.bytes tail) = true ∨
        (Compound.isRTCP d.bytes.length).value (received d.bytes tail) = true ∨
        pc.sessionManager.isNone then []
    else pc.remoteStream.elim [] s.liveSinks

/-- What a step hands to `v`. -/
def handed (v : Address) (s : State) : Label → Multiset (List UInt8)
  | .receive k tail _ => (s.inFlight[k]?).elim 0 fun d ↦
      if v ∈ viewers s d tail then {d.bytes} else 0
  | _ => 0

def ledger (s : State) (v : Address) : Multiset (List UInt8) := mediaSent s v + queued s v

variable {s : State}

theorem ledger_udpSend (s : State) (sender dest : Address) (buffer : ℕ) (bytes : List UInt8)
    (cause : Option (List UInt8)) (v : Address) :
    ledger (s.udpSend sender dest buffer bytes cause) v =
      ledger s v + if sender = v ∧ cause = none then {bytes} else 0 := by
  have hqueued : queued (s.udpSend sender dest buffer bytes cause) v = queued s v := rfl
  have hsent : mediaSent (s.udpSend sender dest buffer bytes cause) v =
      mediaSent s v + if sender = v ∧ cause = none then {bytes} else 0 := by
    by_cases h : sender = v ∧ cause = none
    · simp [mediaSent, udpSend, List.filter_append, h, ← Multiset.coe_add]
    · simp [mediaSent, udpSend, List.filter_append, h]
  rw [ledger, ledger, hqueued, hsent, add_right_comm]

theorem task_lt (h : Balanced s) {t : Task} (ht : t ∈ s.tasks) : t.buffer < s.nextBuffer := by
  by_contra hge
  have hfresh := h.ticket_fresh t.buffer (not_lt.mp hge)
  have hpos : 0 < s.tasks.countP (fun t' ↦ t'.buffer = t.buffer) :=
    List.countP_pos_iff.mpr ⟨t, ht, by simp⟩
  unfold tickets at hfresh
  omega

theorem ledger_alloc (h : Balanced s) (bytes : List UInt8) (v : Address) :
    ledger (s.alloc bytes) v = ledger s v := by
  have hqueued : queued (s.alloc bytes) v = queued s v := by
    refine congrArg _ (List.map_congr_left fun t ht ↦ ?_)
    have hne := (task_lt h (List.mem_of_mem_filter ht)).ne
    simp only [alloc, Function.update_of_ne hne]
  have hsent : mediaSent (s.alloc bytes) v = mediaSent s v := rfl
  rw [ledger, ledger, hqueued, hsent]

theorem ledger_runTask {k : ℕ} {t : Task} (ht : s.tasks[k]? = some t) (pc : PeerConnection)
    (v : Address) :
    ledger (State.runTask { s with tasks := s.tasks.eraseIdx k } t pc) v = ledger s v := by
  obtain ⟨hk, rfl⟩ := List.getElem?_eq_some_iff.mp ht
  -- The task moves from the queue to the record of the sends.
  have hmoved : queued s v = queued { s with tasks := s.tasks.eraseIdx k } v +
      if s.tasks[k].sink = v ∧ (none : Option (List UInt8)) = none then
        {(s.contents s.tasks[k].buffer).take s.tasks[k].size} else 0 := by
    have hperm := ((List.getElem_cons_eraseIdx_perm hk).filter fun t ↦ t.sink = v).map
      fun t ↦ (s.contents t.buffer).take t.size
    rw [queued, ← Multiset.coe_eq_coe.mpr hperm, queued]
    by_cases hv : s.tasks[k].sink = v
    · simp [hv, ← Multiset.cons_coe, ← Multiset.singleton_add, add_comm]
    · simp [hv]
  rw [State.runTask, ledger_udpSend, ledger, ledger, hmoved, ← add_assoc]
  rfl

theorem ledger_onRTP (s : State) (a : Address) (cause : List UInt8) {stream : StreamId}
    (hlive : (s.liveSinks stream).length ≤ 1) (pkt : Rtp.Packet.RTPPacket) (v : Address) :
    ledger (s.perform a cause (.onRTP stream pkt)) v = ledger s v +
      if v ∈ s.liveSinks stream then {(s.contents pkt.data).take pkt.size} else 0 := by
  have hqueued : queued (s.perform a cause (.onRTP stream pkt)) v = queued s v +
      if v ∈ s.liveSinks stream then {(s.contents pkt.data).take pkt.size} else 0 := by
    simp only [queued, perform, List.filter_append, List.map_append, ← Multiset.coe_add,
      List.filter_map, List.map_map]
    congr 1
    cases hsinks : s.liveSinks stream with
    | nil => rfl
    | cons sink rest =>
      obtain rfl : rest = [] := by simpa [hsinks] using hlive
      by_cases hv : sink = v
      · simp [hv]
      · simp [hv, Ne.symm hv]
  have hsent : mediaSent (s.perform a cause (.onRTP stream pkt)) v = mediaSent s v := rfl
  rw [ledger, ledger, hqueued, hsent, add_assoc]

theorem ledger_send (h : Balanced s) (a : Address) (cause : List UInt8) (dest : Address)
    (out : ByteBuffer.Buffer × ℕ) (v : Address) :
    ledger (s.perform a cause (.send dest out)) v = ledger s v := by
  have hsome : ¬ (a = v ∧ some cause = none) := by simp
  rw [perform, ledger_udpSend, ledger_alloc h, if_neg hsome, add_zero]

theorem ledger_feedback (h : Balanced s) (a dest : Address) (cause : List UInt8)
    (feedback : Option FeedbackPacket.RTCPRTPFeedbackPacket) (v : Address) :
    ledger ((feedback.map fun p ↦ Effect.send dest p.serialize).toList.foldl
      (perform a cause) s) v = ledger s v := by
  cases feedback with
  | none => rfl
  | some p => exact ledger_send h a cause dest p.serialize v

theorem liveSinks_feedback (s : State) (a dest : Address) (cause : List UInt8)
    (feedback : Option FeedbackPacket.RTCPRTPFeedbackPacket) :
    ((feedback.map fun p ↦ Effect.send dest p.serialize).toList.foldl
      (perform a cause) s).liveSinks = s.liveSinks := by
  cases feedback with
  | none => rfl
  | some p => rfl

theorem tasks_feedback (s : State) (a dest : Address) (cause : List UInt8)
    (feedback : Option FeedbackPacket.RTCPRTPFeedbackPacket) :
    ((feedback.map fun p ↦ Effect.send dest p.serialize).toList.foldl
      (perform a cause) s).tasks = s.tasks := by
  cases feedback with
  | none => rfl
  | some p => rfl

/-- A datagram queues one task for every viewer, with all its bytes. -/
theorem tasks_read (hmac : Hmac) (s : State) (d : Datagram) (tail : Memory)
    (env : Environment) : (s.read hmac d tail env).tasks = s.tasks ++
      (viewers s d tail).map fun v ↦ ⟨v, s.nextBuffer, d.bytes.length⟩ := by
  unfold State.read viewers
  cases hpc : s.peers d.dest with
  | none => simp
  | some pc =>
    simp only
    split
    case isTrue hbytes => simp [hbytes, arrive, alloc]
    case isFalse hbytes =>
      have hlive := liveSinks_settle s (Option.isSome_of_eq_some hpc)
      have hreaction := onSocketData_reaction hmac env pc s.nextBuffer d.bytes.length d.source
        (received d.bytes tail)
      generalize (onSocketData hmac env pc s.nextBuffer d.bytes.length d.source).value
        (received d.bytes tail) = outcome at hreaction
      have hstart : ((s.arrive d).settle d.dest outcome).tasks = s.tasks := rfl
      cases hreaction with
      | null hstun => simp [hstun, hstart]
      | reply hstun =>
        rw [if_pos (.inr (.inl hstun)), List.map_nil, List.append_nil]
        rfl
      | rtcp _ hrtcp => simp [hrtcp, hstart]
      | unanswered _ _ hmanager => simp [hmanager, hstart]
      | @rtp hstun hrtcp hmanager feedback packet hdata hsize =>
        have hmedia : ¬ (d.bytes = [] ∨ isStun.value (received d.bytes tail) = true ∨
            (Compound.isRTCP d.bytes.length).value (received d.bytes tail) = true ∨
            pc.sessionManager.isNone = true) := by
          simp [hbytes, hstun, hrtcp, ← Option.not_isSome, hmanager]
        rw [if_neg hmedia, List.foldl_append]
        cases pc.remoteStream with
        | none =>
          rw [Option.map_none, Option.toList_none, List.foldl_nil, tasks_feedback]
          exact (List.append_nil _).symm
        | some stream =>
          simp only [Option.map_some, Option.toList_some, List.foldl_cons, List.foldl_nil,
            perform, Option.elim_some]
          rw [tasks_feedback, liveSinks_feedback, hlive, hdata, hsize]
          rfl

theorem contents_read (hmac : Hmac) (s : State) {d : Datagram}
    (hpc : (s.peers d.dest).isSome) (tail : Memory) (env : Environment) :
    (s.read hmac d tail env).contents s.nextBuffer = d.bytes := by
  obtain ⟨pc, hpc⟩ := Option.isSome_iff_exists.mp hpc
  have harrive : (s.arrive d).contents s.nextBuffer = d.bytes := Function.update_self ..
  unfold State.read
  simp only [hpc]
  split
  case isTrue => exact harrive
  case isFalse =>
    rw [(StunExchange.contents_perform _ _ _ _ (Nat.lt_succ_self s.nextBuffer)).2]
    exact harrive

/-- The feedback to the publisher goes out first and does not touch the receive buffer. -/
theorem ledger_media (h : Balanced s) (a dest : Address) (cause : List UInt8)
    (feedback : Option FeedbackPacket.RTCPRTPFeedbackPacket) {stream : StreamId}
    (hlive : (s.liveSinks stream).length ≤ 1) {pkt : Rtp.Packet.RTPPacket}
    (hlt : pkt.data < s.nextBuffer) (v : Address) :
    ledger (List.foldl (perform a cause) s
        ((feedback.map fun p ↦ .send dest p.serialize).toList ++ [.onRTP stream pkt])) v =
      ledger s v +
      if v ∈ s.liveSinks stream then {(s.contents pkt.data).take pkt.size} else 0 := by
  have hsinks := liveSinks_feedback s a dest cause feedback
  rw [List.foldl_append, List.foldl_cons, List.foldl_nil, ledger_onRTP, hsinks,
    ledger_feedback h, (StunExchange.contents_perform a cause _ s hlt).2]
  rwa [hsinks]

theorem ledger_read (h : Balanced s) (hmac : Hmac) {d : Datagram} {tail : Memory}
    (env : Environment)
    (hsink : ∀ pc stream, s.peers d.dest = some pc → pc.remoteStream = some stream →
      isStun.value (received d.bytes tail) = false →
      (Compound.isRTCP d.bytes.length).value (received d.bytes tail) = false →
      (s.liveSinks stream).length ≤ 1) (v : Address) :
    ledger (s.read hmac d tail env) v =
      ledger s v + if v ∈ viewers s d tail then {d.bytes} else 0 := by
  have harrive : ledger (s.arrive d) v = ledger s v := ledger_alloc h d.bytes v
  have hnone (hempty : viewers s d tail = []) :
      ledger s v = ledger s v + if v ∈ viewers s d tail then {d.bytes} else 0 := by
    simp [hempty]
  unfold State.read
  cases hpc : s.peers d.dest with
  | none => exact hnone (by simp [viewers, hpc])
  | some pc =>
    simp only
    split
    case isTrue hbytes => exact harrive.trans (hnone (by simp [viewers, hpc, hbytes]))
    case isFalse hbytes =>
      have hlive := liveSinks_settle s (Option.isSome_of_eq_some hpc)
      have hreaction := onSocketData_reaction hmac env pc s.nextBuffer d.bytes.length d.source
        (received d.bytes tail)
      generalize (onSocketData hmac env pc s.nextBuffer d.bytes.length d.source).value
        (received d.bytes tail) = outcome at hreaction
      have hbalanced : Balanced ((s.arrive d).settle d.dest outcome) :=
        ⟨h.ticket_le, fun b hb ↦ h.ticket_fresh b (Nat.le_of_succ_le hb), h.no_stale⟩
      have hstart : ledger ((s.arrive d).settle d.dest outcome) v = ledger s v := harrive
      cases hreaction with
      | null hstun => exact hstart.trans (hnone (by simp [viewers, hpc, hstun]))
      | @reply hstun p =>
        have hsend := ledger_send hbalanced d.dest d.bytes d.source
          (p.makeResponse.serialize hmac pc.localPassword) v
        exact hsend.trans (hstart.trans (hnone (by simp [viewers, hpc, hstun])))
      | rtcp _ hrtcp => exact hstart.trans (hnone (by simp [viewers, hpc, hrtcp]))
      | unanswered _ _ hmanager =>
        exact hstart.trans (hnone (by simp [viewers, hpc, hmanager]))
      | @rtp hstun hrtcp hmanager feedback packet hdata hsize =>
        cases hstream : pc.remoteStream with
        | none =>
          have hfeedback := ledger_feedback hbalanced d.dest d.source d.bytes feedback v
          simp only [hstream, Option.map_none, Option.toList_none, List.append_nil] at hfeedback ⊢
          exact hfeedback.trans (hstart.trans (hnone (by simp [viewers, hpc, hstream])))
        | some stream =>
          have hviewers : viewers s d tail = s.liveSinks stream := by
            simp [viewers, hpc, hbytes, hstun, hrtcp, hstream, ← Option.not_isSome, hmanager]
          have hcontents (outcome : Outcome) :
              ((s.arrive d).settle d.dest outcome).contents s.nextBuffer = d.bytes :=
            Function.update_self ..
          have hone (outcome : Outcome) :
              (((s.arrive d).settle d.dest outcome).liveSinks stream).length ≤ 1 := by
            rw [hlive]
            exact hsink pc stream hpc hstream hstun hrtcp
          have hmedia := ledger_media hbalanced d.dest d.source d.bytes feedback (hone _)
            (hdata.trans_lt (Nat.lt_succ_self s.nextBuffer)) v
          simp only [hstream, Option.map_some, Option.toList_some] at hmedia hstart ⊢
          rw [hmedia, hstart, hlive, hviewers, hdata, hsize, hcontents, List.take_length]

theorem ledger_step {hmac : Hmac} {s s' : State} {l : Label} (h : Balanced s)
    (hsink : AtMostOneSink s l) (hstep : State.step hmac s l = some s') (v : Address) :
    ledger s' v = ledger s v + handed v s l := by
  cases step_transition hstep with
  | inject => exact (add_zero _).symm
  | @receive k d hd tail env =>
    have herased : Balanced { s with inFlight := s.inFlight.eraseIdx k } :=
      ⟨h.ticket_le, h.ticket_fresh, h.no_stale⟩
    rw [handed, hd, Option.elim_some]
    exact ledger_read herased hmac env (fun pc stream hpc ↦ hsink d pc stream hd hpc) v
  | readNothing => exact (ledger_alloc h [] v).trans (add_zero _).symm
  | runTask ht => exact (ledger_runTask ht _ v).trans (add_zero _).symm
  | complete => exact (add_zero _).symm
  | addStream => exact (add_zero _).symm
  | createAnswer => exact (add_zero _).symm
  | destroy =>
    unfold removeSink
    split <;> exact (add_zero _).symm

def Held (s : State) : Prop := ∀ t ∈ s.tasks, (s.peers t.sink).isSome

theorem Held.setPeer (h : Held s) (a : Address) (pc : PeerConnection) :
    Held (s.setPeer a (some pc)) := by
  intro t ht
  by_cases ha : t.sink = a
  · simp [State.setPeer, ha]
  · simpa [State.setPeer, Function.update_of_ne ha] using h t ht

theorem Held.perform (h : Held s) (a : Address) (cause : List UInt8) (e : Effect) :
    Held (s.perform a cause e) := by
  cases e with
  | send => exact h
  | onRTP stream pkt =>
    intro t ht
    obtain ht | ht := List.mem_append.mp ht
    · exact h t ht
    · obtain ⟨sink, hsink, rfl⟩ := List.mem_map.mp ht
      exact (List.mem_filter.mp hsink).2

theorem Held.foldl_perform (a : Address) (cause : List UInt8) (effects : List Effect)
    (h : Held s) : Held (effects.foldl (State.perform a cause) s) := by
  induction effects generalizing s with
  | nil => exact h
  | cons e effects ih => exact ih (h.perform a cause e)

theorem Held.read (h : Held s) (hmac : Hmac) (d : Datagram) (tail : Memory)
    (env : Environment) : Held (s.read hmac d tail env) := by
  unfold State.read
  split
  · exact h
  · simp only
    split
    · exact h
    · exact Held.foldl_perform _ _ _ (h.setPeer d.dest _)

theorem Held.step {hmac : Hmac} {s s' : State} {l : Label} (h : Held s)
    (hstep : State.step hmac s l = some s') : Held s' := by
  cases step_transition hstep with
  | inject => exact h
  | @receive k d hd tail env =>
    have herased : Held { s with inFlight := s.inFlight.eraseIdx k } := h
    exact herased.read hmac d tail env
  | readNothing => exact h
  | runTask => exact fun t ht ↦ h t (List.mem_of_mem_eraseIdx ht)
  | complete => exact h
  | addStream => exact h.setPeer _ _
  | createAnswer => exact h.setPeer _ _
  | @destroy a pc _ htasks =>
    have hother : ∀ t ∈ s.tasks, (Function.update s.peers a none t.sink).isSome := by
      intro t ht
      have hne : t.sink ≠ a := by simpa using List.any_eq_false.mp htasks t ht
      rw [Function.update_of_ne hne]
      exact h t ht
    unfold removeSink
    split <;> exact hother

end Spadia.System.Forwarding
