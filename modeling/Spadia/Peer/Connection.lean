import Mathlib.Data.List.Induction
import Spadia.Rtcp.Compound
import Spadia.Session.Manager
import Spadia.Stun.Packet

namespace Spadia.Peer.Connection

open Foundation TracedRead Read ByteBuffer Rtp.Packet Rtcp Session.Manager Stun.Packet

abbrev Address := ℕ

/-- A reference to a shared `MediaStream`. -/
abbrev StreamId := ℕ

structure PeerConnection where
  sessionManager : Option RTPSessionManager := none
  localStream : Option StreamId := none
  remoteStream : Option StreamId := none
  localUsername : List UInt8
  localPassword : List UInt8
  remoteUsername : List UInt8 := []
  remotePassword : List UInt8 := []
  lastPacketRecvTimeMS : UInt64 := 0
  lastRemote : Address
deriving Inhabited

inductive Direction
  | sendonly
  | recvonly
  | sendrecv
  | inactive
deriving DecidableEq, Repr

/-- What `CreateAnswer` takes from one m-line of an offer into the state. -/
structure Media where
  direction : Direction
  ext : List (UInt8 × String)
  iceUfrag : List UInt8
  icePwd : List UInt8

namespace PeerConnection

/-- One round of the loop over the m-lines; `fresh` is the stream made where none is yet. -/
def addMedia (fresh : StreamId) (pc : PeerConnection) (media : Media) : PeerConnection :=
  { pc with
    sessionManager := pc.sessionManager.map fun manager ↦
      media.ext.foldl (fun manager e ↦ (manager.setExtension e.1 e.2).1) manager
    remoteStream :=
      if media.direction = .sendonly ∨ media.direction = .sendrecv then
        some (pc.remoteStream.getD fresh)
      else pc.remoteStream
    remoteUsername := media.iceUfrag
    remotePassword := media.icePwd }

def addStream (pc : PeerConnection) (stream : StreamId) : PeerConnection :=
  { pc with localStream := some stream }

def createAnswer (pc : PeerConnection) (offer : List Media) (fresh : StreamId) : PeerConnection :=
  offer.foldl (addMedia fresh) { pc with sessionManager := some {} }

/-- What neither the new manager nor an m-line changes is the same after an answer. -/
theorem createAnswer_keeps {α : Type*} {field : PeerConnection → α}
    (hmanager : ∀ pc manager, field { pc with sessionManager := manager } = field pc)
    (hmedia : ∀ fresh pc media, field (addMedia fresh pc media) = field pc) (pc : PeerConnection)
    (offer : List Media) (fresh : StreamId) :
    field (pc.createAnswer offer fresh) = field pc := by
  induction offer using List.reverseRecOn with
  | nil => exact hmanager pc _
  | append_singleton offer media ih =>
    rw [createAnswer, List.foldl_append]
    exact (hmedia fresh _ media).trans ih

theorem createAnswer_localUsername (pc : PeerConnection) (offer : List Media) (fresh : StreamId) :
    (pc.createAnswer offer fresh).localUsername = pc.localUsername :=
  createAnswer_keeps (fun _ _ ↦ rfl) (fun _ _ _ ↦ rfl) pc offer fresh

theorem createAnswer_localStream (pc : PeerConnection) (offer : List Media) (fresh : StreamId) :
    (pc.createAnswer offer fresh).localStream = pc.localStream :=
  createAnswer_keeps (fun _ _ ↦ rfl) (fun _ _ _ ↦ rfl) pc offer fresh

end PeerConnection

/-- What the host supplies during a callback: the clocks and the contents of members that
have no initialiser. -/
structure Environment where
  nowMS : UInt64
  nowUS : UInt64
  rawPacket : RTPPacket
  rawCount : UInt8
  rawSSRC : UInt32
deriving Inhabited

inductive Effect
  | send (dest : Address) (data : Buffer × ℕ)
  | onRTP (stream : StreamId) (pkt : RTPPacket)

/-- The null pointers that a callback can go through. -/
inductive Fault
  | nullStunPacket
  | nullSessionManager
  | nullRemoteStream
deriving DecidableEq, Repr

structure Outcome where
  pc : PeerConnection
  effects : List Effect := []
  fault : Option Fault := none

namespace PeerConnection

variable (hmac : Hmac) (env : Environment) (pc : PeerConnection)

def touched (rmtSock : Address) : PeerConnection :=
  { pc with lastRemote := rmtSock, lastPacketRecvTimeMS := env.nowMS }

def onIceTimer (now : UInt64) : PeerConnection :=
  -- A connection that has timed out is only logged.
  if pc.lastPacketRecvTimeMS = 0 then { pc with lastPacketRecvTimeMS := now } else pc

def handleStun (size : ℕ) : Read Outcome := do
  let p ← Stun.Packet.parse size
  match p with
  | none => return { pc, fault := some .nullStunPacket }
  | some p =>
    let q := p.makeResponse
    return { pc, effects := [.send pc.lastRemote (q.serialize hmac pc.localPassword)] }

def handleIncomingRTCPData (size : ℕ) : Read Outcome := do
  let packets ← Compound.parse env.rawSSRC size
  match pc.sessionManager with
  | none => return { pc, fault := if packets.2 = [] then none else some .nullSessionManager }
  | some _ => return { pc }

/-- The result of `RTPPacket::Parse` is not looked at. -/
def handleIncomingRTPData (data size : ℕ) : Read Outcome := do
  let parsed ← (env.rawPacket.create env.nowMS).parse data size
  let packet := parsed.2
  match pc.sessionManager with
  | none => return { pc, fault := some .nullSessionManager }
  | some manager =>
    let feedback ← manager.addPacket packet env.nowUS env.rawCount
    let sends := (feedback.map fun p ↦ Effect.send pc.lastRemote p.serialize).toList
    match pc.remoteStream with
    | none => return { pc, effects := sends, fault := some .nullRemoteStream }
    | some stream => return { pc, effects := sends ++ [.onRTP stream packet] }

def onSocketData (data size : ℕ) (rmtSock : Address) : Read Outcome := do
  let stun ← isStun
  if stun then
    handleStun hmac (touched env pc rmtSock) size
  else do
    let rtcp ← Compound.isRTCP size
    if rtcp then handleIncomingRTCPData env (touched env pc rmtSock) size
    else handleIncomingRTPData env (touched env pc rmtSock) data size

end PeerConnection

open PeerConnection

/-- Everything that `OnSocketData` can do with the bytes in `m`. -/
inductive Reaction (hmac : Hmac) (env : Environment) (pc : PeerConnection) (data size : ℕ)
    (rmtSock : Address) (m : Memory) : Outcome → Prop
  | null (hstun : isStun.value m = true) (hp : (Stun.Packet.parse size).value m = none) :
      Reaction hmac env pc data size rmtSock m
        { pc := touched env pc rmtSock, fault := some .nullStunPacket }
  | reply (hstun : isStun.value m = true) {p : StunPacket}
      (hp : (Stun.Packet.parse size).value m = some p) :
      Reaction hmac env pc data size rmtSock m
        { pc := touched env pc rmtSock
          effects := [.send rmtSock (p.makeResponse.serialize hmac pc.localPassword)] }
  | rtcp (hstun : isStun.value m = false) (hrtcp : (Compound.isRTCP size).value m = true)
      {fault : Option Fault} (hfault : fault = none ∨ fault = some .nullSessionManager) :
      Reaction hmac env pc data size rmtSock m { pc := touched env pc rmtSock, fault }
  | unanswered (hstun : isStun.value m = false)
      (hrtcp : (Compound.isRTCP size).value m = false) (hmanager : pc.sessionManager = none) :
      Reaction hmac env pc data size rmtSock m
        { pc := touched env pc rmtSock, fault := some .nullSessionManager }
  | rtp (hstun : isStun.value m = false) (hrtcp : (Compound.isRTCP size).value m = false)
      (hmanager : pc.sessionManager.isSome) (feedback : Option FeedbackPacket.RTCPRTPFeedbackPacket)
      {packet : RTPPacket} (hdata : packet.data = data) (hsize : packet.size = size) :
      Reaction hmac env pc data size rmtSock m
        { pc := touched env pc rmtSock
          effects := (feedback.map fun p ↦ .send rmtSock p.serialize).toList ++
            (pc.remoteStream.map fun stream ↦ .onRTP stream packet).toList
          fault := if pc.remoteStream = none then some .nullRemoteStream else none }

variable (hmac : Hmac) (env : Environment) (pc : PeerConnection) (data size : ℕ)
variable (rmtSock : Address) (m : Memory)

variable {m} in
theorem onSocketData_null (hstun : isStun.value m = true)
    (hp : (Stun.Packet.parse size).value m = none) :
    (onSocketData hmac env pc data size rmtSock).value m =
      { pc := touched env pc rmtSock, fault := some .nullStunPacket } := by
  simp only [onSocketData, value_bind, hstun, if_true, handleStun, hp]
  rfl

variable {m} in
theorem onSocketData_reply (hstun : isStun.value m = true) {p : StunPacket}
    (hp : (Stun.Packet.parse size).value m = some p) :
    (onSocketData hmac env pc data size rmtSock).value m =
      { pc := touched env pc rmtSock
        effects := [.send rmtSock (p.makeResponse.serialize hmac pc.localPassword)] } := by
  simp only [onSocketData, value_bind, hstun, if_true, handleStun, hp]
  rfl

theorem rtcp_reaction (hstun : isStun.value m = false)
    (hrtcp : (Compound.isRTCP size).value m = true) :
    Reaction hmac env pc data size rmtSock m
      ((handleIncomingRTCPData env (touched env pc rmtSock) size).value m) := by
  simp only [handleIncomingRTCPData, value_bind]
  cases (touched env pc rmtSock).sessionManager with
  | none => exact .rtcp hstun hrtcp (by split <;> simp)
  | some manager => exact .rtcp hstun hrtcp (.inl rfl)

theorem rtp_reaction (hstun : isStun.value m = false)
    (hrtcp : (Compound.isRTCP size).value m = false) :
    Reaction hmac env pc data size rmtSock m
      ((handleIncomingRTPData env (touched env pc rmtSock) data size).value m) := by
  obtain ⟨hdata, hsize⟩ := (env.rawPacket.create env.nowMS).parse_data data size m
  cases hmanager : pc.sessionManager with
  | none =>
    have hvalue : (handleIncomingRTPData env (touched env pc rmtSock) data size).value m =
        { pc := touched env pc rmtSock, fault := some .nullSessionManager } := by
      simp only [handleIncomingRTPData, value_bind, touched, hmanager, value_pure]
    rw [hvalue]
    exact .unanswered hstun hrtcp hmanager
  | some manager =>
    have hvalue : (handleIncomingRTPData env (touched env pc rmtSock) data size).value m =
        let packet := (((env.rawPacket.create env.nowMS).parse data size).value m).2
        let feedback := (manager.addPacket packet env.nowUS env.rawCount).value m
        { pc := touched env pc rmtSock
          effects := (feedback.map fun p ↦ .send rmtSock p.serialize).toList ++
            (pc.remoteStream.map fun stream ↦ .onRTP stream packet).toList
          fault := if pc.remoteStream = none then some .nullRemoteStream else none } := by
      simp only [handleIncomingRTPData, value_bind, touched, hmanager]
      cases pc.remoteStream <;> simp
    rw [hvalue]
    exact .rtp hstun hrtcp (by rw [hmanager]; rfl) _ hdata hsize

theorem onSocketData_reaction :
    Reaction hmac env pc data size rmtSock m
      ((onSocketData hmac env pc data size rmtSock).value m) := by
  cases hstun : isStun.value m with
  | true =>
    cases hp : (Stun.Packet.parse size).value m with
    | none =>
      rw [onSocketData_null _ _ _ _ _ _ hstun hp]
      exact .null hstun hp
    | some p =>
      rw [onSocketData_reply _ _ _ _ _ _ hstun hp]
      exact .reply hstun hp
  | false =>
    simp only [onSocketData, value_bind, value_ite, hstun, Bool.false_eq_true, if_false]
    cases hrtcp : (Compound.isRTCP size).value m with
    | true => exact rtcp_reaction _ _ _ _ _ _ _ hstun hrtcp
    | false => exact rtp_reaction _ _ _ _ _ _ _ hstun hrtcp

end Spadia.Peer.Connection
