import Spadia.Server.EntryPoints
import Spadia.Stun.Reply
import Spadia.System.Forwarding
import Spadia.System.Signalling

namespace Spadia.System.Broadcast

open Foundation TracedRead Read ByteBuffer LabelledRun Rtcp Wire.ByteOrder Stun Packet Reply
open Peer Connection PeerConnection Answer Publishing Server PcTable Ports EntryPoints Signalling

section Media

/-- The sockets and the streams that the handlers leave behind, with the number of a connection
for its address. -/
def network (s : Signalling.State) : Network.State where
  peers := s.peers
  sinks := fun stream ↦ (s.sinks stream).sinks

theorem viewers_network {requests : List Request} {s : Signalling.State}
    (h : Mirrors requests s) {i : ℕ} {p : Request} (hi : requests[i]? = some p)
    (hp : p.Publishes) {d : Network.Datagram} {tail : Memory} (hdest : d.dest = i)
    (hbytes : d.bytes ≠ []) (hstun : isStun.value (Network.received d.bytes tail) = false)
    (hrtcp : (Compound.isRTCP d.bytes.length).value (Network.received d.bytes tail) = false) :
    Forwarding.viewers (network s) d tail = audience requests i := by
  obtain ⟨pc, hpc, hserves⟩ := h.peers i p hi hp.2.1
  have hremote : pc.remoteStream = some i := hserves.remoteStream.trans (if_pos hp.2.2)
  have hviewers : Forwarding.viewers (network s) d tail = (network s).liveSinks i := by
    have hpeer : (network s).peers d.dest = some pc := hdest ▸ hpc
    simp [Forwarding.viewers, hpeer, hbytes, hstun, hrtcp, hremote, ← Option.not_isSome,
      hserves.manager]
  rw [hviewers, Network.State.liveSinks]
  change (s.sinks i).sinks.filter (fun v ↦ (s.peers v).isSome) = _
  rw [h.sinks, List.filter_eq_self]
  exact fun v hv ↦ h.alive hv

/-- After any requests, a media datagram that comes to a publisher is queued once, whole, for
each player that came after it and before the next publisher, and for nobody else; the buffer of
these tasks holds its bytes. -/
theorem media_reaches_audience (hmac : Hmac) {ports : PortCounter} {requests : List Request}
    {s : Signalling.State} (hrun : run Signalling.State.step { ports } requests = some s)
    {i : ℕ} {p : Request} (hi : requests[i]? = some p) (hp : p.Publishes)
    {d : Network.Datagram} {tail : Memory} (env : Environment) (hdest : d.dest = i)
    (hbytes : d.bytes ≠ []) (hstun : isStun.value (Network.received d.bytes tail) = false)
    (hrtcp : (Compound.isRTCP d.bytes.length).value (Network.received d.bytes tail) = false) :
    ((network s).read hmac d tail env).tasks.Perm
        ((audience requests i).map fun v ↦ ⟨v, 0, d.bytes.length⟩) ∧
      ((network s).read hmac d tail env).contents 0 = d.bytes := by
  have h := run_history (Mirrors.initial ports) (fun _ _ _ _ h ↦ h.step) hrun
  constructor
  · rw [Forwarding.tasks_read, viewers_network h hi hp hdest hbytes hstun hrtcp]
    exact .refl _
  · obtain ⟨pc, hpc, -⟩ := h.peers i p hi hp.2.1
    have hpeer : ((network s).peers d.dest).isSome := Option.isSome_of_eq_some (hdest ▸ hpc)
    exact Forwarding.contents_read hmac (network s) hpeer tail env

def onAir : Signalling.State := { ports := ⟨8080⟩ }

/-- A packet that comes to the connection of the first request. -/
def mediaToFirst : Network.Datagram := { BufferLedger.media with dest := 0 }

theorem media_reaches_player : ∃ s,
    run Signalling.State.step onAir [postOf publishing [48], playOf playing [49]] = some s ∧
      ((network s).read default mediaToFirst (fun _ ↦ 0) default).tasks.Perm
          ((audience [postOf publishing [48], playOf playing [49]] 0).map
            fun v ↦ ⟨v, 0, mediaToFirst.bytes.length⟩) ∧
        ((network s).read default mediaToFirst (fun _ ↦ 0) default).contents 0 =
          mediaToFirst.bytes := by
  have hpub : (postOf publishing [48]).Publishes := by decide
  refine ⟨_, rfl, media_reaches_audience _ rfl rfl hpub _ rfl ?_ ?_ ?_⟩
  · decide
  · decide
  · decide

end Media

section Answers

variable {s s' : Signalling.State} {r : Request} {answer : AnswerJson}

/-- The new connection as it is when it gets the offer. -/
def opened (s : Signalling.State) (r : Request) : PeerConnection :=
  { r.connection with localStream := if r.route = .play then s.stream else none }

theorem answered_of_serve (h : s.serve r = some (s', some answer)) :
    ∃ done, answered (s.host r) (opened s r) s.streams r.offer = some (done, answer) ∧
      s'.peers = Function.update s.peers s.created (some done.pc) ∧
      s'.pcTable = addPC s.pcTable s.created done.pc := by
  unfold Signalling.State.serve at h
  cases hr : r.route with
  | post =>
    have hopened : opened s r = r.connection := by simp [opened, hr, Request.connection]
    simp only [hr, Option.some.injEq, Signalling.State.post] at h
    rw [hopened]
    cases hdone : answered (s.host r) r.connection s.streams r.offer with
    | none => simp [hdone] at h
    | some result =>
      obtain ⟨done, answer'⟩ := result
      rw [hdone] at h
      obtain ⟨rfl, heq⟩ := Prod.mk.inj h
      obtain rfl := Option.some.inj heq
      exact ⟨done, rfl, rfl, rfl⟩
  | play =>
    simp only [hr, Signalling.State.play] at h
    obtain ⟨stream, hstream, h⟩ := Option.map_eq_some_iff.mp h
    have hopened : opened s r = r.connection.addStream stream := by
      simp [opened, hr, hstream, PeerConnection.addStream]
    rw [hopened]
    cases hdone : answered (s.host r) (r.connection.addStream stream) s.streams r.offer with
    | none => simp [hdone] at h
    | some result =>
      obtain ⟨done, answer'⟩ := result
      rw [hdone] at h
      obtain ⟨rfl, heq⟩ := Prod.mk.inj h
      obtain rfl := Option.some.inj heq
      exact ⟨done, rfl, rfl, rfl⟩

theorem refused_of_serve (h : s.serve r = some (s', none)) :
    ¬ r.Accepted ∧ s'.peers = s.peers ∧ s'.pcTable = s.pcTable := by
  unfold Signalling.State.serve at h
  cases hr : r.route with
  | post =>
    simp only [hr, Option.some.injEq, Signalling.State.post] at h
    rw [← isSome_answered_iff s r r.connection rfl]
    cases hdone : answered (s.host r) r.connection s.streams r.offer with
    | none =>
      rw [hdone] at h
      obtain ⟨rfl, -⟩ := Prod.mk.inj h
      exact ⟨by simp, rfl, rfl⟩
    | some result => simp [hdone] at h
  | play =>
    simp only [hr, Signalling.State.play] at h
    obtain ⟨stream, hstream, h⟩ := Option.map_eq_some_iff.mp h
    rw [← isSome_answered_iff s r (r.connection.addStream stream) rfl]
    cases hdone : answered (s.host r) (r.connection.addStream stream) s.streams r.offer with
    | none =>
      rw [hdone] at h
      obtain ⟨rfl, -⟩ := Prod.mk.inj h
      exact ⟨by simp, rfl, rfl⟩
    | some result => simp [hdone] at h

/-- A player is told the SSRCs that the last publisher offered. -/
theorem player_told_ssrcs {ports : PortCounter} {requests : List Request}
    (hrun : run Signalling.State.step { ports } requests = some s) (hroute : r.route = .play)
    (hserve : s.serve r = some (s', some answer)) :
    ∃ i p, lastPublisher requests = some i ∧ requests[i]? = some p ∧
      List.Forall₂ (fun media line ↦
        line.ssrcs = announcement (s.host r) (published p.offer) media) r.offer answer.media := by
  have h := run_history (Mirrors.initial ports) (fun _ _ _ _ h ↦ h.step) hrun
  obtain ⟨done, hdone, -, -⟩ := answered_of_serve hserve
  obtain ⟨⟨lines, hlines, hanswer⟩, -⟩ := answered_eq_some_iff.mp hdone
  have hstep : s.step r ≠ none := by simp [Signalling.State.step, hserve]
  obtain ⟨i, hi⟩ : ∃ i, s.stream = some i := by
    rw [← Option.isSome_iff_exists, Option.isSome_iff_ne_none]
    exact fun hnone ↦ hstep (step_eq_none_iff.mpr ⟨hroute, hnone⟩)
  obtain ⟨p, hp, hpub⟩ := publishes_lastPublisher (h.stream ▸ hi)
  have hlt : i < requests.length := (List.getElem?_eq_some_iff.mp hp).1
  have hfresh : (s.host r).fresh ≠ i := by
    change s.created ≠ i
    rw [h.created]
    exact hlt.ne'
  refine ⟨i, p, h.stream ▸ hi, hp, ?_⟩
  rw [hanswer, ← h.ssrcs i p hp hpub]
  exact ssrcs_answerLines hlines (by simp [opened, hroute, hi]) rfl hfresh

theorem playing_told_ssrcs : ∃ s s' answer,
    run Signalling.State.step onAir [postOf publishing [48]] = some s ∧
      s.serve (playOf playing [49]) = some (s', some answer) ∧
      ∃ i p, lastPublisher [postOf publishing [48]] = some i ∧
        [postOf publishing [48]][i]? = some p ∧
        List.Forall₂ (fun media line ↦ line.ssrcs =
          announcement (s.host (playOf playing [49])) (published p.offer) media)
          playing answer.media :=
  ⟨_, _, _, rfl, rfl, player_told_ssrcs rfl rfl rfl⟩

end Answers

section Ice

/-- The drawn names are those of `randomID`: without a colon, and no two the same. -/
structure Distinct (requests : List Request) : Prop where
  nodup : (requests.map Request.localUsername).Nodup
  plain : ∀ p ∈ requests, colon ∉ p.localUsername

/-- Every connection that answered can be found under its names. -/
def Listed (requests : List Request) (s : Signalling.State) : Prop :=
  ∀ i r pc, requests[i]? = some r → r.Accepted → s.peers i = some pc →
    s.pcTable (nameOf pc) = some i

variable {requests : List Request} {s s' : Signalling.State} {r : Request}

theorem Distinct.of_concat (h : Distinct (requests ++ [r])) : Distinct requests where
  nodup := by
    have hnodup := h.nodup
    rw [List.map_append] at hnodup
    exact hnodup.of_append_left
  plain p hp := h.plain p (List.mem_append_left _ hp)

theorem Distinct.name_ne (h : Distinct (requests ++ [r])) {i : ℕ} {r' : Request}
    (hi : requests[i]? = some r') {pc pc' : PeerConnection}
    (hpc : pc.localUsername = r'.localUsername) (hpc' : pc'.localUsername = r.localUsername) :
    nameOf pc ≠ nameOf pc' := by
  intro heq
  have hmem : r' ∈ requests := List.mem_of_getElem? hi
  have hcolon : colon ∉ pc.localUsername := by
    rw [hpc]
    exact h.plain r' (List.mem_append_left _ hmem)
  have hcolon' : colon ∉ pc'.localUsername := by
    rw [hpc']
    exact h.plain r (by simp)
  have hsame := (pcName_injective hcolon hcolon' heq).1
  rw [hpc, hpc'] at hsame
  have hnodup := h.nodup
  rw [List.map_append, List.nodup_append] at hnodup
  exact hnodup.2.2 _ (List.mem_map_of_mem hmem) _ (by simp) hsame

theorem Listed.step (hmirrors : Mirrors requests s) (h : Listed requests s)
    (hdistinct : Distinct (requests ++ [r])) (hstep : s.step r = some s') :
    Listed (requests ++ [r]) s' := by
  obtain ⟨⟨s', answer⟩, hserve, rfl⟩ := Option.map_eq_some_iff.mp hstep
  intro i r' pc hi hr' hpc
  cases answer with
  | none =>
    obtain ⟨hrefused, hpeers, htable⟩ := refused_of_serve hserve
    simp only [hpeers, htable] at hpc ⊢
    obtain ⟨hi, -⟩ | ⟨-, rfl⟩ := Mirrors.getElem?_concat_eq_some hi
    · exact h i r' pc hi hr' hpc
    · exact absurd hr' hrefused
  | some answer =>
    obtain ⟨done, hdone, hpeers, htable⟩ := answered_of_serve hserve
    have hserves := serves_of_answered hdone rfl rfl rfl
    simp only [hpeers, htable, addPC] at hpc ⊢
    obtain ⟨hi, hne⟩ | ⟨rfl, rfl⟩ := Mirrors.getElem?_concat_eq_some hi
    · rw [Function.update_of_ne (hmirrors.created ▸ hne)] at hpc
      obtain ⟨pc', hpc', hserves'⟩ := hmirrors.peers i r' hi hr'
      obtain rfl := Option.some.inj (hpc.symm.trans hpc')
      have hname := hdistinct.name_ne hi hserves'.localUsername hserves.localUsername
      rw [Function.update_of_ne hname]
      exact h i r' pc hi hr' hpc
    · rw [← hmirrors.created, Function.update_self] at hpc
      obtain rfl := Option.some.inj hpc
      rw [Function.update_self, hmirrors.created]

theorem listed_of_run {ports : PortCounter}
    (hrun : run Signalling.State.step { ports } requests = some s) (h : Distinct requests) :
    Mirrors requests s ∧ Listed requests s := by
  have hboth : Mirrors requests s ∧ (Distinct requests → Listed requests s) := by
    refine run_history (R := fun ls s ↦ Mirrors ls s ∧ (Distinct ls → Listed ls s)) ?_ ?_ hrun
    · exact ⟨Mirrors.initial ports, fun _ i r pc hi ↦ by simp at hi⟩
    · intro ls a s s' hls hstep
      exact ⟨hls.1.step hstep, fun hd ↦ Listed.step hls.1 (hls.2 hd.of_concat) hd hstep⟩
  exact ⟨hboth.1, hboth.2 h⟩

theorem verifies_reply (hmac : Hmac) (pwd : List UInt8) {d : BindingRequest} {m : Memory}
    (h : Stores m 0 d.bytes) {p : StunPacket} (hp : (parse d.bytes.length).value m = some p) :
    Verifies hmac pwd d.transId.toList (replyBytes hmac pwd p.makeResponse) := by
  obtain ⟨hmethod, -, htransId⟩ := header_of_parse hp
  have hheader := h
  simp only [BindingRequest.bytes, BindingRequest.header, List.append_assoc, stores_append,
    length_writeBE16] at hheader
  obtain ⟨htype, -, -, htransaction, -⟩ := hheader
  have hwd : be16 (m 0) (m 1) = 0x0001 := by
    obtain ⟨h₀, h₁, -⟩ := by simpa only [writeBE16, stores_cons] using htype
    rw [h₀, h₁]
    decide
  have hid : p.transId.toList = d.transId.toList := by
    rw [htransId]
    simpa [Stores, magicCookie] using htransaction
  rw [← hid]
  exact verifies_replyBytes hmac pwd (messageType_makeResponse (.inl hwd) hmethod)

/-- However the requests go on, a connectivity check with the names of an answer finds the
connection in the table of `OnData`, which builds the reply that `OnSocketData` sends, and this
verifies under the password of the answer. -/
theorem ice_check_answered {ports : PortCounter} {before after : List Request}
    {s₁ s₂ : Signalling.State} {answer : AnswerJson}
    (hbefore : run Signalling.State.step { ports } before = some s₁)
    (hserve : s₁.serve r = some (s₂, some answer))
    (hafter : run Signalling.State.step s₂ after = some s)
    (hdistinct : Distinct (before ++ [r] ++ after)) {line : AnswerMedia}
    (hline : line ∈ answer.media) {media : OfferedMedia} (hmedia : r.offer.getLast? = some media)
    {ufrag : List UInt8} (hufrag : media.iceUfrag = some ufrag) {d : BindingRequest} {m : Memory}
    (hstored : Stores m 0 d.bytes) (husername : d.username = pcName line.iceUfrag ufrag)
    (hmac : Hmac) (env : Environment) (data : ℕ) (source : Address) :
    ∃ pc reply, s.peers before.length = some pc ∧
      (onData hmac s.pcTable (fun id ↦ (s.peers id).getD default) d.bytes.length).value m =
        { selected := some before.length, reply := some (write malloc 0 reply, reply.length) } ∧
      ((onSocketData hmac env pc data d.bytes.length source).value m).effects =
        [.send source (write malloc 0 reply, reply.length)] ∧
      Verifies hmac line.icePwd d.transId.toList reply := by
  have hmiddle : run Signalling.State.step { ports } (before ++ [r]) = some s₂ :=
    run_concat.mpr ⟨s₁, hbefore, by simp [Signalling.State.step, hserve]⟩
  obtain ⟨hmirrors, hlisted⟩ := listed_of_run (run_append.mpr ⟨s₂, hmiddle, hafter⟩) hdistinct
  obtain ⟨done, hdone, -, -⟩ := answered_of_serve hserve
  obtain ⟨⟨lines, hlines, rfl⟩, -⟩ := answered_eq_some_iff.mp hdone
  have haccepted : r.Accepted := by
    rw [← isSome_answered_iff s₁ r (opened s₁ r) rfl, hdone]
    rfl
  have hi : (before ++ [r] ++ after)[before.length]? = some r := by simp
  obtain ⟨pc, hpc, hserves⟩ := hmirrors.peers _ r hi haccepted
  obtain ⟨p, hp, hpname⟩ := BindingRequest.exists_parse_of_stores hstored
  have hstun := BindingRequest.isStun_of_stores hstored
  obtain ⟨hlineUfrag, hlinePwd⟩ := ice_answerLines hlines line hline
  -- The names in the answer and in the offer are the ones that the connection has.
  have hname : p.username = nameOf pc := by
    have hremote := hserves.remoteUsername media hmedia
    rw [hufrag, Option.some.injEq] at hremote
    rw [hpname, husername, hlineUfrag, hremote, nameOf, hserves.localUsername]
    rfl
  have hfind : find s.pcTable p.username = some before.length := by
    rw [hname]
    exact hlisted _ r pc hi haccepted hpc
  have hpwd : pc.localPassword = line.icePwd := by
    rw [hserves.localPassword, hlinePwd]
    rfl
  refine ⟨pc, replyBytes hmac line.icePwd p.makeResponse, hpc, ?_, ?_,
    verifies_reply hmac line.icePwd hstored hp⟩
  · simp only [onData, value_bind, hstun, if_true, hp, hfind, hpc, Option.getD_some, hpwd,
      serialize_eq, value_pure]
  · rw [onSocketData_reply _ _ _ _ _ _ hstun hp, hpwd, serialize_eq]

/-- The offer of a player with the name `b`. -/
def namedOffer : List OfferedMedia := playing.map fun media ↦ { media with iceUfrag := some [98] }

theorem named_check_answered : ∃ s₁ s₂ answer line,
    run Signalling.State.step onAir [postOf publishing [48]] = some s₁ ∧
      s₁.serve (playOf namedOffer [97]) = some (s₂, some answer) ∧ line ∈ answer.media ∧
      ∃ pc reply, s₂.peers 1 = some pc ∧
        (onData default s₂.pcTable (fun id ↦ (s₂.peers id).getD default)
            request.bytes.length).value (ofList request.bytes) =
          { selected := some 1, reply := some (write malloc 0 reply, reply.length) } ∧
        ((onSocketData default default pc 0 request.bytes.length 5).value
            (ofList request.bytes)).effects =
          [.send 5 (write malloc 0 reply, reply.length)] ∧
        Verifies default line.icePwd request.transId.toList reply := by
  have hdistinct : Distinct ([postOf publishing [48]] ++ [playOf namedOffer [97]] ++ []) :=
    ⟨by decide, by decide⟩
  refine ⟨_, _, _, _, rfl, rfl, List.mem_cons_self .., ?_⟩
  exact ice_check_answered rfl rfl rfl hdistinct (List.mem_cons_self ..) rfl rfl (by decide)
    (by decide) _ _ _ _

end Ice

end Spadia.System.Broadcast
