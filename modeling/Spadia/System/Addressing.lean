import Spadia.Peer.FeedbackPath
import Spadia.Peer.MediaPath
import Spadia.Stun.Reply
import Spadia.System.BufferLedger
import Spadia.TransportCC.Header

namespace Spadia.System.Addressing

open Foundation TracedRead Read ByteBuffer LabelledRun Rtp.Packet Rtcp Stun.Packet
open Peer.Connection PeerConnection Network State BufferLedger

/-- The datagram that a step hands to `OnSocketData`. -/
def heard (s : State) : Label → List Datagram
  | .receive k _ _ => ((s.inFlight[k]?).filter fun d ↦
      d.bytes ≠ [] ∧ (s.peers d.dest).isSome).toList
  | _ => []

def sending (a : Address) : Effect → Option Datagram
  | .send dest out => some ⟨a, dest, bytes out.1 0 out.2⟩
  | .onRTP _ _ => none

variable (hmac : Hmac)

def replies (s : State) : Label → List Datagram
  | .receive k tail env => (heard s (.receive k tail env)).flatMap fun d ↦
      (s.peers d.dest).elim [] fun pc ↦
        ((onSocketData hmac env pc s.nextBuffer d.bytes.length d.source).value
          (received d.bytes tail)).effects.filterMap (sending d.dest)
  | _ => []

def forwarded (s : State) : Label → List Datagram
  | .runTask k => (s.tasks[k]?).elim [] fun t ↦ (s.peers t.sink).elim [] fun pc ↦
      [⟨t.sink, pc.lastRemote, (s.contents t.buffer).take t.size⟩]
  | _ => []

def others (s : State) : Label → List Datagram
  -- Somebody else sends `d`; all the rest stays in flight.
  | .inject d => s.inFlight ++ [d]
  | .receive k _ _ => s.inFlight.eraseIdx k
  | _ => s.inFlight

variable {hmac} {s s' : State} {l : Label}

theorem inFlight_perform (a : Address) (cause : List UInt8) (effects : List Effect) (s : State) :
    (effects.foldl (perform a cause) s).inFlight =
      s.inFlight ++ effects.filterMap (sending a) := by
  induction effects generalizing s with
  | nil => simp
  | cons e effects ih =>
    rw [List.foldl_cons, ih]
    cases e with
    | send dest out => simp [perform, udpSend, alloc, sending]
    | onRTP stream pkt => simp [perform, List.filterMap_cons, sending]

theorem inFlight_read (s : State) (d : Datagram) (tail : Memory) (env : Environment) :
    (s.read hmac d tail env).inFlight = s.inFlight ++
      (if d.bytes = [] then [] else (s.peers d.dest).elim [] fun pc ↦
        ((onSocketData hmac env pc s.nextBuffer d.bytes.length d.source).value
          (received d.bytes tail)).effects.filterMap (sending d.dest)) := by
  unfold State.read
  cases hpc : s.peers d.dest with
  | none => simp
  | some pc =>
    simp only
    split
    · simp [arrive, alloc]
    · rw [inFlight_perform]
      rfl

theorem heard_receive {k : ℕ} {d : Datagram} (hd : s.inFlight[k]? = some d) (hbytes : d.bytes ≠ [])
    (hpc : (s.peers d.dest).isSome) (tail : Memory) (env : Environment) :
    heard s (.receive k tail env) = [d] := by
  have hcond : d.bytes ≠ [] ∧ (s.peers d.dest).isSome := ⟨hbytes, hpc⟩
  rw [heard, hd, Option.filter_some, if_pos (decide_eq_true hcond), Option.toList_some]

theorem inFlight_step (hstep : State.step hmac s l = some s') :
    s'.inFlight = others s l ++ (replies hmac s l ++ forwarded s l) := by
  cases step_transition hstep with
  | inject => simp [others, replies, forwarded]
  | @receive k d hd tail env =>
    rw [inFlight_read]
    by_cases hbytes : d.bytes = []
    · simp [others, replies, forwarded, heard, hd, hbytes]
    · cases hpc : s.peers d.dest with
      | none => simp [others, replies, forwarded, heard, hd, hpc]
      | some pc =>
        have hheard := heard_receive hd hbytes (by rw [hpc]; rfl) tail env
        simp [others, replies, forwarded, hheard, hpc, hbytes]
  | readNothing => simp [others, replies, forwarded, State.free, alloc]
  | @runTask k t ht pc hpc => simp [others, replies, forwarded, ht, hpc, State.runTask, udpSend]
  | complete => simp [others, replies, forwarded, State.free]
  | addStream => simp [others, replies, forwarded, addSink, setPeer]
  | createAnswer => simp [others, replies, forwarded, setPeer]
  | destroy =>
    unfold removeSink
    split <;> simp [others, replies, forwarded, setPeer]

section Size

open Session.Manager TransportCC Feedback Peer.Negotiation

theorem length_serialize_single (raw : UInt8) (num : UInt16) (t : UInt64) (b : Buffer)
    (data : ℕ) : ((Wrap.single raw num t).serialize b data).2 ≤ 12 := by
  have hlist := Wrap.toList_single raw num t
  by_cases ht : t = 0
  · have hne : (Wrap.single raw num t).packets.isEmpty = false := by
      rw [← (Wrap.single raw num t).packets.isEmpty_toList, hlist]
      rfl
    have habsent := Header.foldl_step_absent data (Wrap.single raw num t).feedbackPacketCount
      (Wrap.single raw num t).packets.toList ((Wrap.single raw num t).scanInit b data)
      (by rw [hlist]; simpa using ht)
    obtain ⟨pad, hpad, hser⟩ := Serialized.serialize_body hne b data
    have hscan : ((Wrap.single raw num t).scan b data).len = 4 ∧
        ((Wrap.single raw num t).scan b data).deltas = [] := habsent
    have hstatuses : ((Wrap.single raw num t).scan b data).statuses.length = 1 := by
      rw [Serialized.length_scan_statuses, ← (Wrap.single raw num t).packets.length_toList, hlist]
      rfl
    rw [hser, hscan.1, hscan.2]
    simp only [Serialized.body, List.length_append, Encoding.length_chunkBytes, hstatuses,
      Encoding.deltaBytes, List.flatMap_nil, List.length_nil, List.length_replicate]
    omega
  · have hmem : (num.toUInt32, t) ∈ (Wrap.single raw num t).packets.toList := by
      rw [hlist]
      exact List.mem_singleton.mpr rfl
    obtain ⟨out, hser, -⟩ := FeedbackFraming.serialize_block hmem ht b data
    rw [hser, Peer.FeedbackPath.feedbackSize_single raw num ht]

theorem size_feedback (manager : RTPSessionManager) (pkt : RTPPacket) (nowUS : UInt64)
    (raw : UInt8) (m : Memory) {p : FeedbackPacket.RTCPRTPFeedbackPacket}
    (hp : (manager.addPacket pkt nowUS raw).value m = some p) : p.serialize.2 ≤ 24 := by
  cases hid : manager.getExtensionId .transportCC with
  | none => simp [RTPSessionManager.addPacket, hid] at hp
  | some id =>
    rw [addPacket_value hid] at hp
    obtain ⟨num, -, rfl⟩ := Option.map_eq_some_iff.mp hp
    have hsize := length_serialize_single raw num nowUS (Peer.FeedbackPath.sources pkt.ssrc) 12
    change (UInt16.ofNat (((Wrap.single raw num nowUS).serialize
      (Peer.FeedbackPath.sources pkt.ssrc) 12).2 + 12)).toNat ≤ 24
    rw [UInt16.toNat_ofNat']
    omega

end Size

def Brief (a dest : Address) (sends : List Datagram) : Prop :=
  sends = [] ∨ ∃ out, sends = [⟨a, dest, out⟩] ∧ out.length ≤ 52

section Reaction

variable (hmac) (env : Environment) (pc : PeerConnection) (data size : ℕ) (rmtSock : Address)
variable {m : Memory} (a : Address)

theorem brief_stun (hstun : isStun.value m = true) :
    Brief a rmtSock (((onSocketData hmac env pc data size rmtSock).value m).effects.filterMap
      (sending a)) := by
  cases hp : (Stun.Packet.parse size).value m with
  | none =>
    rw [onSocketData_null hmac env pc data size rmtSock hstun hp]
    exact .inl rfl
  | some p =>
    rw [onSocketData_reply hmac env pc data size rmtSock hstun hp]
    refine .inr ⟨_, rfl, ?_⟩
    rw [length_bytes, Stun.Reply.serialize_eq, Stun.Reply.length_replyBytes]

theorem brief_rtcp (hstun : isStun.value m = false)
    (hrtcp : (Compound.isRTCP size).value m = true) :
    Brief a rmtSock (((onSocketData hmac env pc data size rmtSock).value m).effects.filterMap
      (sending a)) := by
  left
  simp only [onSocketData, value_bind, hstun, hrtcp, Bool.false_eq_true, if_false, if_true,
    handleIncomingRTCPData]
  cases (touched env pc rmtSock).sessionManager <;> rfl

theorem brief_rtp (hstun : isStun.value m = false)
    (hrtcp : (Compound.isRTCP size).value m = false) :
    Brief a rmtSock (((onSocketData hmac env pc data size rmtSock).value m).effects.filterMap
      (sending a)) := by
  cases hmanager : pc.sessionManager with
  | none =>
    left
    simp [onSocketData, hstun, hrtcp, handleIncomingRTPData, touched, hmanager]
  | some manager =>
    rw [Peer.FeedbackPath.effects_rtp hmac env data rmtSock hmanager hstun hrtcp,
      List.filterMap_append]
    have hmedia (pkt : RTPPacket) : (pc.remoteStream.map
        fun stream ↦ Effect.onRTP stream pkt).toList.filterMap (sending a) = [] := by
      cases pc.remoteStream <;> rfl
    rw [hmedia, List.append_nil]
    cases hp : (manager.addPacket (Rtp.Extensions.received env.rawPacket env.nowMS data size m)
        env.nowUS env.rawCount).value m with
    | none => exact .inl rfl
    | some p =>
      refine .inr ⟨_, rfl, ?_⟩
      rw [length_bytes]
      exact (size_feedback manager _ _ _ m hp).trans (by decide)

variable (m) in
theorem brief_onSocketData :
    Brief a rmtSock (((onSocketData hmac env pc data size rmtSock).value m).effects.filterMap
      (sending a)) := by
  cases hstun : isStun.value m with
  | true => exact brief_stun hmac env pc data size rmtSock a hstun
  | false =>
    cases hrtcp : (Compound.isRTCP size).value m with
    | true => exact brief_rtcp hmac env pc data size rmtSock a hstun hrtcp
    | false => exact brief_rtp hmac env pc data size rmtSock a hstun hrtcp

end Reaction

theorem heard_cases (s : State) (l : Label) : heard s l = [] ∨
    ∃ k tail env q pc, l = .receive k tail env ∧ s.inFlight[k]? = some q ∧ q.bytes ≠ [] ∧
      s.peers q.dest = some pc ∧ heard s l = [q] := by
  cases l with
  | receive k tail env =>
    cases hq : s.inFlight[k]? with
    | none => exact .inl (by simp [heard, hq])
    | some q =>
      by_cases hbytes : q.bytes = []
      · exact .inl (by simp [heard, hq, hbytes])
      · cases hpc : s.peers q.dest with
        | none => exact .inl (by simp [heard, hq, hpc])
        | some pc =>
          have hheard := heard_receive hq hbytes (by rw [hpc]; rfl) tail env
          exact .inr ⟨k, tail, env, q, pc, rfl, hq, hbytes, hpc, hheard⟩
  | _ => exact .inl rfl

theorem peer_of_heard {q : Datagram} (h : heard s l = [q]) : ∃ pc, s.peers q.dest = some pc := by
  rcases heard_cases s l with hnil | ⟨-, -, -, q', pc, -, -, -, hpc, hq'⟩
  · cases h.symm.trans hnil
  · obtain rfl : q' = q := by simpa using hq'.symm.trans h
    exact ⟨pc, hpc⟩

theorem mem_forwarded {d : Datagram} (h : d ∈ forwarded s l) :
    ∃ (k : ℕ) (t : Task) (pc : PeerConnection), l = .runTask k ∧ s.peers t.sink = some pc ∧
      d = ⟨t.sink, pc.lastRemote, (s.contents t.buffer).take t.size⟩ := by
  cases l with
  | runTask k =>
    simp only [forwarded] at h
    cases ht : s.tasks[k]? with
    | none => simp [ht] at h
    | some t =>
      cases hpc : s.peers t.sink with
      | none => simp [ht, hpc] at h
      | some pc =>
        refine ⟨k, t, pc, rfl, hpc, ?_⟩
        simpa [ht, hpc] using h
  | _ => cases h

theorem replies_cases (hmac : Hmac) (s : State) (l : Label) :
    (heard s l = [] ∧ replies hmac s l = []) ∨
      ∃ q, heard s l = [q] ∧ Brief q.dest q.source (replies hmac s l) := by
  rcases heard_cases s l with hnil | ⟨k, tail, env, q, pc, rfl, -, -, hpc, hheard⟩
  · refine .inl ⟨hnil, ?_⟩
    cases l with
    | receive k tail env => simp [replies, hnil]
    | _ => rfl
  · refine .inr ⟨q, hheard, ?_⟩
    have hreplies : replies hmac s (.receive k tail env) =
        ((onSocketData hmac env pc s.nextBuffer q.bytes.length q.source).value
          (received q.bytes tail)).effects.filterMap (sending q.dest) := by
      simp [replies, hheard, hpc]
    rw [hreplies]
    exact brief_onSocketData hmac env pc s.nextBuffer q.bytes.length q.source _ q.dest

/-- The source of the last datagram that came to the socket `a`. -/
def correspondent (hs : List Datagram) (a : Address) : Option Address :=
  (hs.filter (·.dest = a)).getLast?.map Datagram.source

theorem correspondent_append (hs : List Datagram) (d : Datagram) (a : Address) :
    correspondent (hs ++ [d]) a = if d.dest = a then some d.source else correspondent hs a := by
  by_cases h : d.dest = a
  · simp [correspondent, List.filter_append, h]
  · simp [correspondent, List.filter_append, h]

/-- Every connection sends its media to the source of the last datagram it heard. -/
def Aimed (s₀ : State) (hs : List Datagram) (s : State) : Prop :=
  ∀ a pc, s.peers a = some pc → ∃ pc₀, s₀.peers a = some pc₀ ∧
    pc.lastRemote = (correspondent hs a).getD pc₀.lastRemote

theorem peers_perform (a : Address) (cause : List UInt8) (effects : List Effect) (s : State) :
    (effects.foldl (perform a cause) s).peers = s.peers := by
  induction effects generalizing s with
  | nil => rfl
  | cons e effects ih =>
    rw [List.foldl_cons, ih]
    cases e <;> rfl

theorem peers_read (s : State) {d : Datagram} {pc : PeerConnection}
    (hpc : s.peers d.dest = some pc) (hbytes : d.bytes ≠ []) (tail : Memory)
    (env : Environment) :
    (s.read hmac d tail env).peers =
      Function.update s.peers d.dest (some (touched env pc d.source)) := by
  unfold State.read
  simp only [hpc, if_neg hbytes, peers_perform, settle, Peer.MediaPath.onSocketData_pc]
  rfl

theorem lastRemote_step (hstep : State.step hmac s l = some s') {a : Address}
    {pc' : PeerConnection} (hpc' : s'.peers a = some pc') (hheard : ∀ q ∈ heard s l, q.dest ≠ a) :
    ∃ pc, s.peers a = some pc ∧ pc'.lastRemote = pc.lastRemote := by
  cases step_transition hstep with
  | inject => exact ⟨pc', hpc', rfl⟩
  | @receive k d hd tail env =>
    by_cases hbytes : d.bytes = []
    · refine ⟨pc', ?_, rfl⟩
      rw [← hpc']
      unfold State.read
      cases s.peers d.dest with
      | none => rfl
      | some pc =>
        simp only [hbytes, if_true]
        rfl
    · cases hpc : s.peers d.dest with
      | none =>
        refine ⟨pc', ?_, rfl⟩
        rw [← hpc']
        unfold State.read
        simp only [hpc]
      | some pc =>
        have hne : a ≠ d.dest := by
          rw [heard_receive hd hbytes (by rw [hpc]; rfl) tail env] at hheard
          exact (hheard d (List.mem_singleton.mpr rfl)).symm
        rw [peers_read { s with inFlight := s.inFlight.eraseIdx k } hpc hbytes,
          Function.update_of_ne hne] at hpc'
        exact ⟨pc', hpc', rfl⟩
  | readNothing => exact ⟨pc', hpc', rfl⟩
  | runTask => exact ⟨pc', hpc', rfl⟩
  | complete => exact ⟨pc', hpc', rfl⟩
  | @addStream b pc hpc stream =>
    simp only [addSink, setPeer, Function.update_apply] at hpc'
    split at hpc'
    case isTrue hb =>
      obtain rfl := Option.some.inj hpc'
      exact ⟨pc, hb ▸ hpc, rfl⟩
    case isFalse => exact ⟨pc', hpc', rfl⟩
  | @createAnswer b pc hpc offer fresh hfresh =>
    simp only [setPeer, Function.update_apply] at hpc'
    split at hpc'
    case isTrue hb =>
      obtain rfl := Option.some.inj hpc'
      exact ⟨pc, hb ▸ hpc, createAnswer_keeps (fun _ _ ↦ rfl) (fun _ _ _ ↦ rfl) pc offer fresh⟩
    case isFalse => exact ⟨pc', hpc', rfl⟩
  | @destroy b pc hpc htasks =>
    have hpeers : (s.removeSink b pc).peers = s.peers := by
      unfold removeSink
      split <;> rfl
    simp only [setPeer, hpeers, Function.update_apply] at hpc'
    split at hpc'
    case isTrue => cases hpc'
    case isFalse => exact ⟨pc', hpc', rfl⟩

theorem lastRemote_heard (hstep : State.step hmac s l = some s') {q : Datagram}
    (hheard : heard s l = [q]) {pc' : PeerConnection} (hpc' : s'.peers q.dest = some pc') :
    (s.peers q.dest).isSome ∧ pc'.lastRemote = q.source := by
  rcases heard_cases s l with hnil | ⟨k, tail, env, q', pc, rfl, hk, hbytes, hpc, hq'⟩
  · cases hheard.symm.trans hnil
  · obtain rfl : q' = q := by simpa using hq'.symm.trans hheard
    cases step_transition hstep with
    | @receive k d hd tail env =>
      obtain rfl : q' = d := Option.some.inj (hk.symm.trans hd)
      rw [peers_read { s with inFlight := s.inFlight.eraseIdx k } hpc hbytes,
        Function.update_self] at hpc'
      obtain rfl := Option.some.inj hpc'
      exact ⟨by rw [hpc]; rfl, rfl⟩

theorem Aimed.step {s₀ : State} {hs : List Datagram} (h : Aimed s₀ hs s)
    (hstep : State.step hmac s l = some s') : Aimed s₀ (hs ++ heard s l) s' := by
  intro a pc' hpc'
  rcases heard_cases s l with hnil | ⟨-, -, -, q, -, -, -, -, -, hheard⟩
  · obtain ⟨pc, hpc, haim⟩ := lastRemote_step hstep hpc' (by simp [hnil])
    rw [hnil, List.append_nil, haim]
    exact h a pc hpc
  · rw [hheard, correspondent_append]
    by_cases ha : q.dest = a
    · subst ha
      obtain ⟨hpc, haim⟩ := lastRemote_heard hstep hheard hpc'
      obtain ⟨pc, hpc⟩ := Option.isSome_iff_exists.mp hpc
      obtain ⟨pc₀, hpc₀, -⟩ := h q.dest pc hpc
      exact ⟨pc₀, hpc₀, by simpa using haim⟩
    · obtain ⟨pc, hpc, haim⟩ := lastRemote_step hstep hpc' (by simp [hheard, ha])
      rw [if_neg ha, haim]
      exact h a pc hpc

theorem run_aimed {s₀ : State} {labels : List Label}
    (hrun : run (State.step hmac) s₀ labels = some s) :
    Aimed s₀ (trail (State.step hmac) heard s₀ labels) s := by
  refine run_trail (R := Aimed s₀) ?_ (fun _ _ _ _ h hstep ↦ h.step hstep) hrun
  intro a pc hpc
  exact ⟨pc, hpc, rfl⟩

/-- In every run, whatever a connection sends goes to the source of the datagram it heard last,
or to the address it was made with if it has heard nothing. -/
theorem sends_to_correspondent {s₀ : State} {labels : List Label}
    (hrun : run (State.step hmac) s₀ labels = some s) (hstep : State.step hmac s l = some s') :
    s'.inFlight = others s l ++ (replies hmac s l ++ forwarded s l) ∧
      ∀ d ∈ replies hmac s l ++ forwarded s l, ∃ pc₀, s₀.peers d.source = some pc₀ ∧
        d.dest = (correspondent (trail (State.step hmac) heard s₀ (labels ++ [l])) d.source).getD
          pc₀.lastRemote := by
  have haimed := run_aimed hrun
  refine ⟨inFlight_step hstep, fun d hd ↦ ?_⟩
  rw [trail_concat hrun]
  rcases List.mem_append.mp hd with hd | hd
  · rcases replies_cases hmac s l with ⟨-, hnil⟩ | ⟨q, hheard, hnil | ⟨out, hout, -⟩⟩
    · simp [hnil] at hd
    · simp [hnil] at hd
    · obtain rfl : d = ⟨q.dest, q.source, out⟩ := by simpa [hout] using hd
      obtain ⟨pc, hpc⟩ := peer_of_heard hheard
      obtain ⟨pc₀, hpc₀, -⟩ := haimed q.dest pc hpc
      exact ⟨pc₀, hpc₀, by simp [hheard, correspondent_append]⟩
  · obtain ⟨k, t, pc, rfl, hpc, rfl⟩ := mem_forwarded hd
    obtain ⟨pc₀, hpc₀, haim⟩ := haimed t.sink pc hpc
    refine ⟨pc₀, hpc₀, ?_⟩
    simp only [heard, List.append_nil]
    exact haim

def hello : Datagram := ⟨5, 2, [0x80, 203, 0, 0]⟩

def helloThenMedia : List Label :=
  [.inject hello, .receive 0 (fun _ ↦ 0) default, .inject media, .receive 0 (fun _ ↦ 0) default]

theorem viewer_sends_to_five : ∃ s s',
    run (State.step default) (broadcast [2]) helloThenMedia = some s ∧
    State.step default s (.runTask 0) = some s' ∧
    s'.inFlight = others s (.runTask 0) ++
      (replies default s (.runTask 0) ++ forwarded s (.runTask 0)) ∧
    ∀ d ∈ replies default s (.runTask 0) ++ forwarded s (.runTask 0),
      ∃ pc₀, (broadcast [2]).peers d.source = some pc₀ ∧
        d.dest = (correspondent (trail (State.step default) heard (broadcast [2])
          (helloThenMedia ++ [.runTask 0])) d.source).getD pc₀.lastRemote := by
  have hsome : (run (State.step default) (broadcast [2])
      (helloThenMedia ++ [.runTask 0])).isSome := by decide +kernel
  obtain ⟨s', hs'⟩ := Option.isSome_iff_exists.mp hsome
  obtain ⟨s, hrun, hstep⟩ := run_concat.mp hs'
  exact ⟨s, s', hrun, hstep, sends_to_correspondent hrun hstep⟩

def volume (x : Address) (ds : List Datagram) : ℕ :=
  ((ds.filter (·.dest = x)).map (·.bytes.length)).sum

theorem reflected_step (hmac : Hmac) (s : State) (l : Label) (x : Address) :
    (replies hmac s l).countP (·.dest = x) ≤ (heard s l).countP (·.source = x) ∧
      volume x (replies hmac s l) ≤ 52 * (heard s l).countP (·.source = x) := by
  rcases replies_cases hmac s l with ⟨hnone, hnil⟩ | ⟨q, hheard, hnil | ⟨out, hout, hlength⟩⟩
  · simp [hnone, hnil, volume]
  · simp [hnil, volume]
  · by_cases hx : q.source = x
    · simp [hheard, hout, hx, volume, hlength]
    · simp [hheard, hout, hx, volume]

/-- In every run, what `OnSocketData` sends to an address is bounded by what was heard from that
address: no more datagrams, and at most 52 bytes for each. -/
theorem reflection_bounded {s₀ : State} {labels : List Label}
    (hrun : run (State.step hmac) s₀ labels = some s) (x : Address) :
    (trail (State.step hmac) (replies hmac) s₀ labels).countP (·.dest = x) ≤
        (trail (State.step hmac) heard s₀ labels).countP (·.source = x) ∧
      volume x (trail (State.step hmac) (replies hmac) s₀ labels) ≤
        52 * (trail (State.step hmac) heard s₀ labels).countP (·.source = x) := by
  induction labels using List.reverseRecOn generalizing s with
  | nil => simp [trail, volume]
  | append_singleton labels l ih =>
    obtain ⟨s₁, hrun₁, -⟩ := run_concat.mp hrun
    obtain ⟨hcount, hvolume⟩ := ih hrun₁
    obtain ⟨hcount', hvolume'⟩ := reflected_step hmac s₁ l x
    rw [trail_concat hrun₁, trail_concat hrun₁]
    simp only [List.countP_append, volume, List.filter_append, List.map_append, List.sum_append]
    unfold volume at hvolume hvolume'
    exact ⟨by omega, by omega⟩

theorem media_reflected : ∃ s,
    run (State.step default) (broadcast [2]) helloThenMedia = some s ∧
    (trail (State.step default) (replies default) (broadcast [2]) helloThenMedia).countP
        (·.dest = 9) ≤
      (trail (State.step default) heard (broadcast [2]) helloThenMedia).countP (·.source = 9) ∧
    volume 9 (trail (State.step default) (replies default) (broadcast [2]) helloThenMedia) ≤
      52 * (trail (State.step default) heard (broadcast [2]) helloThenMedia).countP
        (·.source = 9) := by
  have hsome : (run (State.step default) (broadcast [2]) helloThenMedia).isSome := by
    decide +kernel
  obtain ⟨s, hrun⟩ := Option.isSome_iff_exists.mp hsome
  exact ⟨s, hrun, reflection_bounded hrun 9⟩

end Spadia.System.Addressing
