import Spadia.Peer.Negotiation
import Spadia.Rtcp.FeedbackFraming
import Spadia.Rtp.Extensions
import Spadia.Rtp.Layout
import Spadia.Rtp.Recorded
import Spadia.TransportCC.Wrap

namespace Spadia.Peer.FeedbackPath

open Foundation TracedRead Read ByteBuffer Wire.ByteOrder Rtp.Packet Rtp.Grammar Rtp.Extensions
open Session.Manager Stun.Packet Rtcp Reports FeedbackPacket TransportCC Feedback PacketStatus
open DraftLayout Connection PeerConnection

/-- What the sender of media reads from a feedback datagram: an RTCP transport-cc message about
`ssrc` in which the packet `num` was received at `t`, up to the rounding and whole periods of
the reference time. -/
structure Reports (out : Buffer × ℕ) (ssrc : UInt32) (num : UInt16) (t : UInt64) : Prop where
  size : out.2 = 24
  header : bytes out.1 0 12 = [0x8F, 205, 0, 5] ++ writeBE32 0 ++ writeBE32 ssrc
  message : ∃ status x, decode (bytes out.1 12 12) = some ⟨num.toNat, 1, [status], [some x]⟩ ∧
    (status = smallDelta ∨ status = largeOrNegativeDelta) ∧
    ((t.toNat : ℤ) - x) % (2 ^ 23 * 64000) < 250

/-- The datagrams that a callback sends itself. -/
def sends (effects : List Effect) : List (Address × Buffer × ℕ) :=
  effects.filterMap fun
    | .send dest data => some (dest, data)
    | .onRTP .. => none

section Packet

/-- The buffer of `RTCPRTPFeedbackPacket::Serialize` when it comes to the field. -/
def sources (ssrc : UInt32) : Buffer := write (write malloc 4 (writeBE32 0)) 8 (writeBE32 ssrc)

/-- The common header, the two synchronisation sources and the field, one behind the other. -/
theorem serialize_field (p : RTCPRTPFeedbackPacket) {out : List UInt8} {n : ℕ}
    (hout : p.field.serialize (sources p.ssrc) 12 = (write (sources p.ssrc) 12 out, n)) :
    p.serialize = (write malloc 0
      ((RTCPCommonHeader.mk p.field.type false 2 rtpFeedback (UInt16.ofNat (n + 12))).serialize ++
        (writeBE32 0 ++ writeBE32 p.ssrc ++ out)), (UInt16.ofNat (n + 12)).toNat) := by
  have hssrc : sources p.ssrc = write malloc 4 (writeBE32 0 ++ writeBE32 p.ssrc) :=
    write_write_append malloc 4 (writeBE32 0) (writeBE32 p.ssrc)
  have hfield : write (sources p.ssrc) 12 out =
      write malloc 4 (writeBE32 0 ++ writeBE32 p.ssrc ++ out) := by
    rw [hssrc]
    exact write_write_append malloc 4 (writeBE32 0 ++ writeBE32 p.ssrc) out
  have hheader (l k : List UInt8) (hl : l.length = 4) :
      write (write malloc 4 k) 0 l = write malloc 0 (l ++ k) := by
    rw [write_comm malloc 4 0 (.inr (by omega))]
    exact write_end malloc hl k
  rw [hfield] at hout
  unfold sources at hout
  simp only [RTCPRTPFeedbackPacket.serialize, rtcpCommonHeaderSize, Nat.reduceAdd, hout]
  rw [hheader _ _ rfl]

theorem feedbackSize_single (raw : UInt8) (num : UInt16) {t : UInt64} (ht : t ≠ 0) :
    FeedbackFraming.feedbackSize (Wrap.single raw num t) = 12 := by
  have hsize : (Wrap.single raw num t).packets.size = 1 := by
    rw [← (Wrap.single raw num t).packets.length_toList, Wrap.toList_single]
    rfl
  have hdeltas := (Wrap.scan_single raw num ht malloc 0).2
  rw [FeedbackFraming.feedbackSize, FeedbackFraming.deltas, hsize, hdeltas]
  cases hsmall : FeedbackFraming.small (deltaTo (Wrap.startTime t.toNat) t.toNat) <;> simp [hsmall]

theorem reports_feedbackFor (p : RTPPacket) (num : UInt16) {t : UInt64} (ht : t ≠ 0)
    (raw : UInt8) : Reports (Negotiation.feedbackFor p num t raw).serialize p.ssrc num t := by
  have hmem : (num.toUInt32, t) ∈ (Wrap.single raw num t).packets.toList := by
    rw [Wrap.toList_single]
    exact List.mem_singleton.mpr rfl
  have hsize := feedbackSize_single raw num ht
  obtain ⟨out, hser, hlength⟩ := FeedbackFraming.serialize_block hmem ht (sources p.ssrc) 12
  have hdecode := Wrap.decode_single raw num ht (sources p.ssrc) 12
  rw [hser, ← hlength, bytes_write] at hdecode
  rw [hsize] at hser hlength
  have hpacket : (Negotiation.feedbackFor p num t raw).serialize =
      (write malloc 0 ([0x8F, 205, 0, 5] ++ writeBE32 0 ++ writeBE32 p.ssrc ++ out), 24) := by
    have hhead : (RTCPCommonHeader.mk transportWideFeedbackMessage false 2 rtpFeedback
        (UInt16.ofNat (12 + 12))).serialize = [0x8F, 205, 0, 5] := by decide
    rw [serialize_field (Negotiation.feedbackFor p num t raw) hser, List.append_assoc,
      List.append_assoc, ← List.append_assoc (writeBE32 0), ← hhead]
    rfl
  have hfront : ([0x8F, 205, 0, 5] ++ writeBE32 0 ++ writeBE32 p.ssrc).length = 12 := rfl
  have hmessage : bytes (write malloc 0 ([0x8F, 205, 0, 5] ++ writeBE32 0 ++ writeBE32 p.ssrc ++
      out)) 12 12 = out := by
    rw [← write_end malloc hfront, ← hlength, bytes_write]
  rw [hpacket]
  refine ⟨rfl, bytes_write_append malloc 0 out hfront, _, _,
    (congrArg decode hmessage).trans hdecode, ?_, ?_⟩
  · rw [Encoding.label, statusOf]
    split
    case isTrue => exact .inr rfl
    case isFalse => exact .inl rfl
  · rw [Wrap.int16_deltaTo, Wrap.startTime_eq]
    omega

end Packet

section Media

variable {m : Memory} {size : ℕ}

theorem isStun_of_wellFormed (h : WellFormed m size) : isStun.value m = false := by
  have hversion := h.version
  rw [← Bool.not_eq_true, isStun_value]
  intro hstun
  rcases hstun.1 with h₀ | h₀ <;> rw [h₀] at hversion <;> revert hversion <;> decide

theorem ssrc_received (h : WellFormed m size) (raw : RTPPacket) (now : UInt64) (data : ℕ) :
    (received raw now data size m).ssrc = be32 (m 8) (m 9) (m 10) (m 11) := by
  obtain ⟨exts, hparse⟩ := Rtp.Layout.parse_wellFormed h (RTPPacket.create raw now) data
  rw [received, hparse]
  rfl

theorem effects_rtp (hmac : Hmac) (env : Environment) {pc : PeerConnection} (data : ℕ)
    (rmtSock : Address) {manager : RTPSessionManager} (hmanager : pc.sessionManager = some manager)
    (hstun : isStun.value m = false) (hrtcp : (Compound.isRTCP size).value m = false) :
    ((onSocketData hmac env pc data size rmtSock).value m).effects =
      (((manager.addPacket (received env.rawPacket env.nowMS data size m) env.nowUS
        env.rawCount).value m).map fun p ↦ Effect.send rmtSock p.serialize).toList ++
      (pc.remoteStream.map fun stream ↦
        .onRTP stream (received env.rawPacket env.nowMS data size m)).toList := by
  simp only [onSocketData, value_bind, hstun, hrtcp, Bool.false_eq_true, if_false,
    handleIncomingRTPData, touched, hmanager]
  cases pc.remoteStream <;> simp [received]

theorem sends_onRTP (stream : Option StreamId) (pkt : RTPPacket) :
    sends (stream.map fun stream ↦ .onRTP stream pkt).toList = [] := by
  cases stream <;> rfl

/-- The number of a transport-cc element at the start of the extension block is read. -/
theorem number_received {profile : UInt16} {id b₀ b₁ : UInt8} {rest : List UInt8}
    {items : List Item} (h : Carries m size profile (.element id (b₀ :: b₁ :: rest) :: items))
    (hpads : ∀ i ∈ items, i.IsPad) (raw : RTPPacket) (now : UInt64) (data : ℕ) :
    ((received raw now data size m).getTransportCCNum id).value m = some (be16 b₀ b₁) := by
  obtain ⟨k, -, hstored⟩ := h.block
  have hlocated : located profile (headerSize m + 4) (.element id (b₀ :: b₁ :: rest) :: items) =
      [⟨id, b₀ :: b₁ :: rest, headerSize m + 4 + extensionHeaderLength profile⟩] := by
    rw [located, located_eq_nil hpads]
  have hbytes := stores_located ((stores_append _ _ _ _).mp hstored).1
    (by rw [hlocated]; exact List.mem_singleton.mpr rfl)
  simp only [stores_cons] at hbytes
  rw [getTransportCCNum_value, parse_exts h, hlocated]
  simp [lastWith, hbytes.1, hbytes.2.1]

/-- A number is read for an id exactly if the walk over the extension block meets an element with
this id. -/
theorem number_eq_none_iff (m : Memory) (size : ℕ) (id : UInt8) (raw : RTPPacket) (now : UInt64)
    (data : ℕ) : ((received raw now data size m).getTransportCCNum id).value m = none ↔
      ∀ r ∈ Rtp.Recorded.assignments m size, r.ext.id ≠ id := by
  have hexts : (received raw now data size m).exts =
      (Rtp.Recorded.assignments m size).foldl Rtp.Recorded.Recording.assign ∅ :=
    Rtp.Recorded.parse_assignments (raw.create now) data
  rw [getTransportCCNum_value, Option.map_eq_none_iff, hexts]
  constructor
  · rintro hnone r hr rfl
    have hsome : ((Rtp.Recorded.assignments m size).foldl Rtp.Recorded.Recording.assign
        ∅)[r.ext.id.toUInt16]?.isSome := Rtp.Recorded.isSome_foldl_assign (.inl ⟨r, hr, rfl⟩)
    rw [hnone] at hsome
    cases hsome
  · intro habsent
    rw [Option.eq_none_iff_forall_ne_some]
    intro e he
    rcases Rtp.Recorded.exists_of_foldl_assign he with ⟨r, hr, rfl, hid⟩ | hempty
    · exact habsent r hr (by simpa [← UInt16.toNat_inj, UInt8.toNat_inj] using hid)
    · simp at hempty

theorem mem_of_located {profile : UInt16} {pos : ℕ} {items : List Item} {e : Located}
    (he : e ∈ located profile pos items) : .element e.id e.bytes ∈ items := by
  induction items generalizing pos with
  | nil => simp [located] at he
  | cons item items ih =>
    cases item with
    | pad => exact List.mem_cons_of_mem _ (ih he)
    | element id bytes =>
      rcases List.mem_cons.mp he with rfl | he
      · exact List.mem_cons_self
      · exact List.mem_cons_of_mem _ (ih he)

theorem no_number_received {profile : UInt16} {id : UInt8} {items : List Item}
    (h : Carries m size profile items) (habsent : ∀ bytes, .element id bytes ∉ items)
    (raw : RTPPacket) (now : UInt64) (data : ℕ) :
    ((received raw now data size m).getTransportCCNum id).value m = none := by
  rw [getTransportCCNum_value, parse_exts h]
  cases hlast : lastWith (located profile (headerSize m + 4) items) id.toUInt16 with
  | none => rfl
  | some e =>
    have heq : e.id.toUInt16 = id.toUInt16 := by simpa using List.find?_some hlast
    have hid : e.id = id := by
      apply UInt8.toNat_inj.mp
      simpa using congrArg UInt16.toNat heq
    exact absurd (hid ▸ mem_of_located (mem_of_lastWith hlast)) (habsent e.bytes)

end Media

section Loop

variable {m : Memory} {size : ℕ} {pc pc₀ : PeerConnection} {offer : List Media} {fresh : StreamId}
variable {id : UInt8}

theorem getExtensionId_answered {manager : RTPSessionManager}
    (hmanager : (pc₀.createAnswer offer fresh).sessionManager = some manager)
    (hid : id ∈ Negotiation.acceptedIds offer)
    (hleast : ∀ id' ∈ Negotiation.acceptedIds offer, id ≤ id') :
    manager.getExtensionId .transportCC = some id := by
  rw [Negotiation.sessionManager_createAnswer] at hmanager
  obtain rfl := Option.some.inj hmanager
  exact (Negotiation.getExtensionId_eq_some_iff (Negotiation.extMap_setAll {} _)).mpr
    ⟨hid, hleast⟩

/-- A feedback is sent for the number that is read from the packet. -/
theorem sends_rtp (hmac : Hmac) (env : Environment) (data : ℕ) (rmtSock : Address)
    (hmanager : pc.sessionManager = (pc₀.createAnswer offer fresh).sessionManager)
    (hid : id ∈ Negotiation.acceptedIds offer)
    (hleast : ∀ id' ∈ Negotiation.acceptedIds offer, id ≤ id')
    (hstun : isStun.value m = false) (hrtcp : (Compound.isRTCP size).value m = false) :
    sends ((onSocketData hmac env pc data size rmtSock).value m).effects =
      ((((received env.rawPacket env.nowMS data size m).getTransportCCNum id).value m).map
        fun num ↦ (rmtSock, (Negotiation.feedbackFor
          (received env.rawPacket env.nowMS data size m) num env.nowUS
          env.rawCount).serialize)).toList := by
  obtain ⟨manager, hsome⟩ : ∃ manager, (pc₀.createAnswer offer fresh).sessionManager =
      some manager := ⟨_, Negotiation.sessionManager_createAnswer pc₀ offer fresh⟩
  rw [effects_rtp hmac env data rmtSock (hmanager.trans hsome) hstun hrtcp,
    Negotiation.addPacket_value (getExtensionId_answered hsome hid hleast)]
  cases ((received env.rawPacket env.nowMS data size m).getTransportCCNum id).value m with
  | none => exact sends_onRTP pc.remoteStream _
  | some num => exact congrArg (_ :: ·) (sends_onRTP pc.remoteStream _)

/-- The loop of congestion control. A datagram that is neither STUN nor RTCP causes no feedback
exactly if no element of its extension block has the negotiated id, and so none without such a
block; one that carries the element first in its block causes one datagram to its sender, which
names the SSRC, the number and the time of arrival of this packet. -/
theorem feedback_closes_loop (hmac : Hmac) (env : Environment) (data : ℕ) (rmtSock : Address)
    (hmanager : pc.sessionManager = (pc₀.createAnswer offer fresh).sessionManager)
    (hid : id ∈ Negotiation.acceptedIds offer)
    (hleast : ∀ id' ∈ Negotiation.acceptedIds offer, id ≤ id')
    (hstun : isStun.value m = false) (hrtcp : (Compound.isRTCP size).value m = false)
    (hnow : env.nowUS ≠ 0) :
    (sends ((onSocketData hmac env pc data size rmtSock).value m).effects = [] ↔
      ∀ r ∈ Rtp.Recorded.assignments m size, r.ext.id ≠ id) ∧
    ((HasExtension m → extensionProfile m ≠ kOneByteExtensionProfileId ∧
        extensionProfile m ≠ kTwoByteExtensionProfileId) →
      sends ((onSocketData hmac env pc data size rmtSock).value m).effects = []) ∧
    ∀ profile items, Carries m size profile items →
      ((∀ bytes, .element id bytes ∉ items) →
        sends ((onSocketData hmac env pc data size rmtSock).value m).effects = []) ∧
      ∀ b₀ b₁ rest pads, items = .element id (b₀ :: b₁ :: rest) :: pads →
        (∀ i ∈ pads, i.IsPad) →
        ∃ out, sends ((onSocketData hmac env pc data size rmtSock).value m).effects =
            [(rmtSock, out)] ∧
          Reports out (be32 (m 8) (m 9) (m 10) (m 11)) (be16 b₀ b₁) env.nowUS := by
  have hsends := sends_rtp hmac env data rmtSock hmanager hid hleast hstun hrtcp
  have hsilent : sends ((onSocketData hmac env pc data size rmtSock).value m).effects = [] ↔
      ∀ r ∈ Rtp.Recorded.assignments m size, r.ext.id ≠ id := by
    rw [hsends, ← number_eq_none_iff m size id env.rawPacket env.nowMS data]
    cases ((received env.rawPacket env.nowMS data size m).getTransportCCNum id).value m <;> simp
  refine ⟨hsilent, fun hblock ↦ ?_, fun profile items h ↦ ⟨fun habsent ↦ ?_,
    fun b₀ b₁ rest pads hitems hpads ↦ ?_⟩⟩
  · rw [hsilent, Rtp.Recorded.assignments_eq_nil]
    · simp
    · intro hwalked
      obtain ⟨-, -, hext, -, hknown⟩ := hwalked
      exact hknown.elim (hblock hext).1 (hblock hext).2
  · rw [hsends, no_number_received h habsent]
    rfl
  · subst hitems
    rw [hsends, number_received h hpads]
    have hreports := reports_feedbackFor (received env.rawPacket env.nowMS data size m)
      (be16 b₀ b₁) hnow env.rawCount
    rw [ssrc_received h.wellFormed] at hreports
    exact ⟨_, rfl, hreports⟩

/-- The answer to an offer with the extension under id `2`. -/
def measured : PeerConnection :=
  (default : PeerConnection).createAnswer [⟨.sendonly, [(2, transportCCUri)], [], []⟩] 0

def clock : Environment := { (default : Environment) with nowUS := 1700000000123456 }

theorem oneElement_reported :
    (∃ out, sends ((onSocketData default clock measured 0 20 9).value oneElement).effects =
        [(9, out)] ∧ Reports out 7 0x1234 clock.nowUS) ∧
      sends ((onSocketData default clock measured 0 12 9).value
        (ofList [0x80, 96, 0, 1, 0, 0, 0, 0, 0, 0, 0, 7])).effects = [] := by
  have hcarries : Carries oneElement 20 kOneByteExtensionProfileId [.element 2 [0x12, 0x34]] :=
    ⟨by decide, by decide, .inl rfl, by decide, by simp [Item.Legal], 1, by decide, by decide⟩
  have hids : Negotiation.acceptedIds [⟨.sendonly, [(2, transportCCUri)], [], []⟩] = [2] := by
    decide
  have hid : 2 ∈ Negotiation.acceptedIds [⟨.sendonly, [(2, transportCCUri)], [], []⟩] := by
    rw [hids]
    exact List.mem_singleton.mpr rfl
  have hleast (id' : UInt8)
      (h : id' ∈ Negotiation.acceptedIds [⟨.sendonly, [(2, transportCCUri)], [], []⟩]) :
      2 ≤ id' := by
    rw [hids, List.mem_singleton] at h
    subst h
    decide
  constructor
  · have hstun := isStun_of_wellFormed hcarries.wellFormed
    have hrtcp : (Compound.isRTCP 20).value oneElement = false := by decide
    obtain ⟨-, -, hloop⟩ := feedback_closes_loop default clock 0 9 rfl hid hleast hstun hrtcp
      (by decide)
    exact (hloop _ _ hcarries).2 0x12 0x34 [] [] rfl (by simp)
  · exact (feedback_closes_loop default clock 0 9 rfl hid hleast (by decide) (by decide)
      (by decide)).2.1 (fun hext ↦ absurd hext (by decide))

end Loop

end Spadia.Peer.FeedbackPath
