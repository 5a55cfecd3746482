import Spadia.Peer.Connection
import Spadia.Rtp.Grammar

namespace Spadia.Peer.MediaPath

open Foundation TracedRead Read Rtp.Packet Rtp.Grammar Rtcp Session.Manager Stun.Packet
open Connection PeerConnection

variable {m : Memory}

theorem onSocketData_pc (hmac : Hmac) (env : Environment) (pc : PeerConnection) (data size : ℕ)
    (rmtSock : Address) (m : Memory) :
    ((onSocketData hmac env pc data size rmtSock).value m).pc = touched env pc rmtSock := by
  have hreaction := onSocketData_reaction hmac env pc data size rmtSock m
  generalize (onSocketData hmac env pc data size rmtSock).value m = outcome at hreaction
  cases hreaction <;> rfl

/-- The states of a connection that has answered an offer. -/
inductive AfterAnswer : PeerConnection → Prop
  | createAnswer (pc : PeerConnection) (offer : List Media) (fresh : StreamId) :
      AfterAnswer (pc.createAnswer offer fresh)
  | addStream {pc : PeerConnection} (stream : StreamId) :
      AfterAnswer pc → AfterAnswer (pc.addStream stream)
  | onSocketData {pc : PeerConnection} (hmac : Hmac) (env : Environment) (data size : ℕ)
      (rmtSock : Address) (m : Memory) :
      AfterAnswer pc → AfterAnswer ((onSocketData hmac env pc data size rmtSock).value m).pc

theorem isSome_foldl_addMedia (fresh : StreamId) (offer : List Media) {pc : PeerConnection}
    (h : pc.sessionManager.isSome) : (offer.foldl (addMedia fresh) pc).sessionManager.isSome := by
  induction offer generalizing pc with
  | nil => exact h
  | cons media offer ih => exact ih (by simpa [addMedia] using h)

theorem AfterAnswer.isSome {pc : PeerConnection} (h : AfterAnswer pc) :
    pc.sessionManager.isSome := by
  induction h with
  | createAnswer pc offer fresh => exact isSome_foldl_addMedia fresh offer rfl
  | addStream stream _ ih => exact ih
  | onSocketData hmac env data size rmtSock m _ ih =>
    rw [onSocketData_pc]
    exact ih

variable (hmac : Hmac) (env : Environment) (pc : PeerConnection) (data size : ℕ)
variable (rmtSock : Address)

/-- `MediaStream::OnRTP` is called for the remote stream exactly when there is one and the
datagram is a well-formed RTP packet; a missing stream is never touched. -/
structure MediaGuarded (m : Memory) : Prop where
  forwards_iff :
    (∃ stream pkt, Effect.onRTP stream pkt ∈
      ((onSocketData hmac env pc data size rmtSock).value m).effects) ↔
    pc.remoteStream.isSome ∧ isStun.value m = false ∧ (Compound.isRTCP size).value m = false ∧
      WellFormed m size
  stream_eq : ∀ stream pkt, Effect.onRTP stream pkt ∈
    ((onSocketData hmac env pc data size rmtSock).value m).effects →
    pc.remoteStream = some stream
  not_null : ((onSocketData hmac env pc data size rmtSock).value m).fault ≠
    some .nullRemoteStream

theorem mediaGuarded_of_control
    (h : isStun.value m = true ∨ (Compound.isRTCP size).value m = true) :
    MediaGuarded hmac env pc data size rmtSock m := by
  have hout : (∀ stream pkt, Effect.onRTP stream pkt ∉
      ((onSocketData hmac env pc data size rmtSock).value m).effects) ∧
      ((onSocketData hmac env pc data size rmtSock).value m).fault ≠ some .nullRemoteStream := by
    have hreaction := onSocketData_reaction hmac env pc data size rmtSock m
    generalize (onSocketData hmac env pc data size rmtSock).value m = outcome at hreaction
    cases hreaction with
    | null => simp
    | reply => simp
    | rtcp _ _ hfault => rcases hfault with rfl | rfl <;> simp
    | unanswered => simp
    | rtp hstun hrtcp => simp [hstun, hrtcp] at h
  refine ⟨⟨fun ⟨stream, pkt, hmem⟩ ↦ absurd hmem (hout.1 stream pkt), ?_⟩,
    fun stream pkt hmem ↦ absurd hmem (hout.1 stream pkt), hout.2⟩
  intro h
  obtain ⟨-, hstun, hrtcp, -⟩ := h
  simp [hstun, hrtcp] at h

variable {pc}

/-- The RTP branch goes through a missing stream, and forwards everything to one that is
there. -/
theorem onSocketData_rtp (hpc : pc.sessionManager.isSome) (hstun : isStun.value m = false)
    (hrtcp : (Compound.isRTCP size).value m = false) :
    (pc.remoteStream = none →
      ((onSocketData hmac env pc data size rmtSock).value m).fault = some .nullRemoteStream) ∧
    ∀ stream, pc.remoteStream = some stream →
      ((onSocketData hmac env pc data size rmtSock).value m).fault = none ∧
      (∃ pkt, .onRTP stream pkt ∈
        ((onSocketData hmac env pc data size rmtSock).value m).effects) ∧
      ∀ stream' pkt, .onRTP stream' pkt ∈
        ((onSocketData hmac env pc data size rmtSock).value m).effects → stream' = stream := by
  have hreaction := onSocketData_reaction hmac env pc data size rmtSock m
  generalize (onSocketData hmac env pc data size rmtSock).value m = outcome at hreaction
  cases hreaction with
  | null htrue => simp [hstun] at htrue
  | reply htrue => simp [hstun] at htrue
  | rtcp _ htrue => simp [hrtcp] at htrue
  | unanswered _ _ hmanager => simp [hmanager] at hpc
  | @rtp _ _ _ feedback packet =>
    refine ⟨fun hnone ↦ by simp [hnone], fun stream hsome ↦ ?_⟩
    simp only [hsome, Option.map_some, Option.toList_some, List.mem_append, List.mem_singleton]
    refine ⟨by simp, ⟨packet, .inr rfl⟩, fun stream' pkt hmem ↦ ?_⟩
    obtain hmem | hmem := hmem
    · simp at hmem
    · exact (Effect.onRTP.inj hmem).1

theorem mediaGuarded_iff {m : Memory} (h : AfterAnswer pc) :
    MediaGuarded hmac env pc data size rmtSock m ↔
      isStun.value m = true ∨ (Compound.isRTCP size).value m = true ∨
        (pc.remoteStream.isSome ∧ WellFormed m size) := by
  by_cases hcontrol : isStun.value m = true ∨ (Compound.isRTCP size).value m = true
  · exact iff_of_true (mediaGuarded_of_control _ _ _ _ _ _ hcontrol) (by tauto)
  · obtain ⟨hstun, hrtcp⟩ := not_or.mp hcontrol
    rw [Bool.not_eq_true] at hstun hrtcp
    obtain ⟨hnone, hsome⟩ := onSocketData_rtp hmac env data size rmtSock h.isSome hstun hrtcp
    constructor
    · intro hguard
      cases hstream : pc.remoteStream with
      | none => exact absurd (hnone hstream) hguard.not_null
      | some stream =>
        obtain ⟨-, ⟨pkt, hpkt⟩, -⟩ := hsome stream hstream
        exact .inr (.inr ⟨rfl, (hguard.forwards_iff.mp ⟨stream, pkt, hpkt⟩).2.2.2⟩)
    · intro hcond
      obtain ⟨hremote, hwell⟩ :=
        (hcond.resolve_left (by simp [hstun])).resolve_left (by simp [hrtcp])
      obtain ⟨stream, hstream⟩ := Option.isSome_iff_exists.mp hremote
      obtain ⟨hfault, ⟨pkt, hpkt⟩, honly⟩ := hsome stream hstream
      refine ⟨⟨fun _ ↦ ⟨hremote, hstun, hrtcp, hwell⟩, fun _ ↦ ⟨stream, pkt, hpkt⟩⟩, ?_, ?_⟩
      · intro stream' pkt' hmem
        rw [honly stream' pkt' hmem, hstream]
      · simp [hfault]

def publisher : PeerConnection := (default : PeerConnection).createAnswer [⟨.sendonly, [], [], []⟩] 0

def player : PeerConnection := (default : PeerConnection).createAnswer [⟨.recvonly, [], [], []⟩] 0

def headerOnly : Memory := ofList [0x80, 96, 0, 1, 0, 0, 0, 0, 0, 0, 0, 7]

theorem publisher_mediaGuarded : AfterAnswer publisher ∧
    MediaGuarded default default publisher 0 12 0 headerOnly :=
  ⟨.createAnswer _ _ _, (mediaGuarded_iff _ _ _ _ _ (.createAnswer _ _ _)).mpr
    (.inr (.inr ⟨by decide, by decide⟩))⟩

/-- A single byte is forwarded, and a player goes through its missing stream. -/
theorem not_mediaGuarded :
    (AfterAnswer publisher ∧ ¬ MediaGuarded default default publisher 0 1 0 (ofList [0x80])) ∧
    AfterAnswer player ∧ ¬ MediaGuarded default default player 0 12 0 headerOnly := by
  refine ⟨⟨.createAnswer _ _ _, fun h ↦ ?_⟩, .createAnswer _ _ _, fun h ↦ ?_⟩
  · have hforward : ∃ pkt, Effect.onRTP 0 pkt ∈ ((PeerConnection.onSocketData default default
        publisher 0 1 0).value (ofList [0x80])).effects := ⟨_, List.mem_singleton.mpr rfl⟩
    obtain ⟨pkt, hpkt⟩ := hforward
    exact absurd (h.forwards_iff.mp ⟨0, pkt, hpkt⟩).2.2.2 (by decide)
  · exact h.not_null (by decide +kernel)

end Spadia.Peer.MediaPath
