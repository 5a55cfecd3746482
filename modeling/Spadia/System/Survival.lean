import Spadia.System.BufferLedger

namespace Spadia.System.Survival

open Foundation TracedRead Read LabelledRun Rtcp Stun.Packet Peer.Connection PeerConnection
open Network State BufferLedger

/-- No null pointer is in the way of the bytes in `m`: what looks like STUN can be parsed,
only an answered connection gets reports, and only a publisher gets media. -/
structure Harmless (env : Environment) (pc : PeerConnection) (size : ℕ) (m : Memory) : Prop where
  stun : isStun.value m = true → ((Stun.Packet.parse size).value m).isSome
  rtcp : isStun.value m = false → (Compound.isRTCP size).value m = true →
    pc.sessionManager.isSome ∨ ((Compound.parse env.rawSSRC size).value m).2 = []
  rtp : isStun.value m = false → (Compound.isRTCP size).value m = false →
    pc.sessionManager.isSome ∧ pc.remoteStream.isSome

theorem handleIncomingRTCPData_fault (env : Environment) (pc : PeerConnection) (size : ℕ)
    (m : Memory) : ((handleIncomingRTCPData env pc size).value m).fault = none ↔
      (pc.sessionManager.isSome ∨ ((Compound.parse env.rawSSRC size).value m).2 = []) := by
  simp only [handleIncomingRTCPData, value_bind]
  cases pc.sessionManager with
  | none => simp
  | some manager => simp

theorem handleIncomingRTPData_fault (env : Environment) (pc : PeerConnection) (data size : ℕ)
    (m : Memory) : ((handleIncomingRTPData env pc data size).value m).fault = none ↔
      (pc.sessionManager.isSome ∧ pc.remoteStream.isSome) := by
  simp only [handleIncomingRTPData, value_bind]
  cases pc.sessionManager with
  | none => simp
  | some manager =>
    simp only [value_bind]
    cases pc.remoteStream with
    | none => simp
    | some stream => simp

theorem handleStun_fault (hmac : Hmac) (pc : PeerConnection) (size : ℕ) (m : Memory) :
    ((handleStun hmac pc size).value m).fault = none ↔
      ((Stun.Packet.parse size).value m).isSome := by
  simp only [handleStun, value_bind]
  cases (Stun.Packet.parse size).value m with
  | none => simp
  | some p => simp

theorem onSocketData_fault (hmac : Hmac) (env : Environment) (pc : PeerConnection)
    (data size : ℕ) (rmtSock : Address) (m : Memory) :
    ((onSocketData hmac env pc data size rmtSock).value m).fault = none ↔
      Harmless env pc size m := by
  simp only [onSocketData, value_bind, value_ite]
  cases hstun : isStun.value m with
  | true =>
    rw [if_pos rfl, handleStun_fault]
    exact ⟨fun h ↦ ⟨fun _ ↦ h, by simp [hstun], by simp [hstun]⟩, fun h ↦ h.stun hstun⟩
  | false =>
    rw [if_neg (by simp)]
    cases hrtcp : (Compound.isRTCP size).value m with
    | true =>
      rw [if_pos rfl, handleIncomingRTCPData_fault]
      exact ⟨fun h ↦ ⟨by simp [hstun], fun _ _ ↦ h, by simp [hrtcp]⟩, fun h ↦ h.rtcp hstun hrtcp⟩
    | false =>
      rw [if_neg (by simp), handleIncomingRTPData_fault]
      exact ⟨fun h ↦ ⟨by simp [hstun], by simp [hrtcp], fun _ _ ↦ h⟩, fun h ↦ h.rtp hstun hrtcp⟩

/-- A datagram that a connection gets in this step is harmless to it. -/
def Safe (s : State) : Label → Prop
  | .receive k tail env => ∀ d pc, s.crashed = false → s.inFlight[k]? = some d →
      s.peers d.dest = some pc → d.bytes ≠ [] →
      Harmless env pc d.bytes.length (received d.bytes tail)
  | _ => True

theorem crashed_perform (a : Address) (cause : List UInt8) (effects : List Effect) (s : State) :
    (effects.foldl (perform a cause) s).crashed = s.crashed := by
  induction effects generalizing s with
  | nil => rfl
  | cons e effects ih =>
    rw [List.foldl_cons, ih]
    cases e <;> rfl

theorem crashed_read (hmac : Hmac) {s : State} (hs : s.crashed = false) (d : Datagram)
    (tail : Memory) (env : Environment) :
    (s.read hmac d tail env).crashed = false ↔ ∀ pc, s.peers d.dest = some pc →
      d.bytes ≠ [] → Harmless env pc d.bytes.length (received d.bytes tail) := by
  unfold State.read
  cases hpc : s.peers d.dest with
  | none => simp [hs]
  | some pc =>
    simp only
    split
    case isTrue hbytes => simp [hbytes, arrive, alloc, hs]
    case isFalse hbytes =>
      rw [crashed_perform, settle, ← Bool.not_eq_true, Option.isSome_iff_ne_none, not_not,
        onSocketData_fault]
      simp [hbytes]

theorem crashed_step {hmac : Hmac} {s s' : State} {l : Label} (hs : s.crashed = false)
    (hstep : State.step hmac s l = some s') : s'.crashed = false ↔ Safe s l := by
  cases step_transition hstep with
  | inject => exact iff_of_true hs trivial
  | @receive k d hd tail env =>
    have hread := crashed_read hmac (s := { s with inFlight := s.inFlight.eraseIdx k }) hs d
      tail env
    rw [hread]
    constructor
    · intro h d' pc _ hd'
      obtain rfl : d = d' := Option.some.inj (hd.symm.trans hd')
      exact h pc
    · exact fun h pc ↦ h d pc hs hd
  | readNothing => exact iff_of_true hs trivial
  | runTask => exact iff_of_true hs trivial
  | complete => exact iff_of_true hs trivial
  | addStream => exact iff_of_true hs trivial
  | createAnswer => exact iff_of_true hs trivial
  | destroy =>
    unfold removeSink
    split <;> exact iff_of_true hs trivial

theorem safe_of_stuck {hmac : Hmac} {s : State} {l : Label}
    (hstep : State.step hmac s l = none) : Safe s l := by
  cases l with
  | receive k tail env =>
    intro d pc hs hd
    simp [State.step, hs, hd] at hstep
  | _ => trivial

/-- The network with the timers that `Start` has started. Nothing stops a timer, and the
destructor leaves its handle with a null pointer to the connection. -/
structure Timed where
  net : State
  timers : Address → Bool := fun _ ↦ false

inductive Call
  | net (l : Label)
  | start (a : Address)
  | ontimer (a : Address) (now : UInt64)

namespace Timed

variable (hmac : Hmac)

def step (s : Timed) : Call → Option Timed
  | .net l => (s.net.step hmac l).map fun net ↦ { s with net }
  | .start a =>
    -- The task of `Start` holds the connection.
    if s.net.crashed ∨ (s.net.peers a).isNone then none
    else some { s with timers := Function.update s.timers a true }
  | .ontimer a now =>
    if s.net.crashed ∨ s.timers a = false then none
    else match s.net.peers a with
      | some pc => some { s with net := s.net.setPeer a (some (pc.onIceTimer now)) }
      | none => some { s with net := { s.net with crashed := true } }

/-- A datagram that is read is harmless, and a timer that fires still has its connection. -/
def Safe (s : Timed) : Call → Prop
  | .net l => Survival.Safe s.net l
  | .start _ => True
  | .ontimer a _ => s.net.crashed = false → s.timers a = true → (s.net.peers a).isSome

variable {hmac} {s s' : Timed} {c : Call}

theorem crashed_step (hs : s.net.crashed = false) (hstep : s.step hmac c = some s') :
    s'.net.crashed = false ↔ s.Safe c := by
  cases c with
  | net l =>
    obtain ⟨net, hnet, rfl⟩ := Option.map_eq_some_iff.mp hstep
    exact Survival.crashed_step hs hnet
  | start a =>
    simp only [step] at hstep
    split at hstep
    case isTrue => cases hstep
    case isFalse =>
      obtain rfl := Option.some.inj hstep
      exact iff_of_true hs trivial
  | ontimer a now =>
    simp only [step] at hstep
    split at hstep
    case isTrue => cases hstep
    case isFalse hfires =>
      have htimer : s.timers a = true := by simpa [hs] using hfires
      cases hpc : s.net.peers a with
      | some pc =>
        rw [hpc] at hstep
        obtain rfl := Option.some.inj hstep
        exact iff_of_true hs fun _ _ ↦ Option.isSome_of_eq_some hpc
      | none =>
        rw [hpc] at hstep
        obtain rfl := Option.some.inj hstep
        simp [Safe, hs, htimer, hpc]

theorem safe_of_stuck (hstep : s.step hmac c = none) : s.Safe c := by
  cases c with
  | net l => exact Survival.safe_of_stuck (Option.map_eq_none_iff.mp hstep)
  | start a => trivial
  | ontimer a now =>
    intro hs htimer
    rw [Option.isSome_iff_ne_none]
    intro hpc
    simp [step, hs, htimer, hpc] at hstep

end Timed

-- The viewer is destroyed, and its timer fires once more.
example : (run (Timed.step default) { net := broadcast [2] }
    [.start 2, .net (.destroy 2), .ontimer 2 5]).map (·.net.crashed) = some true := by
  decide

end Spadia.System.Survival
