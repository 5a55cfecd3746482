import Spadia.System.Addressing
import Spadia.System.Broadcast

namespace Spadia.System.Relay

open Foundation TracedRead Read Rtcp Stun.Packet Peer.Connection PeerConnection
open Network BufferLedger Forwarding Addressing

/-- What happens at the sockets while no request comes. -/
def Traffic : Label → Prop
  | .inject _ | .receive .. | .readNothing | .runTask _ | .complete _ => True
  | .addStream .. | .createAnswer .. | .destroy _ => False

instance : DecidablePred Traffic
  | .inject _ | .receive .. | .readNothing | .runTask _ | .complete _ => .isTrue trivial
  | .addStream .. | .createAnswer .. | .destroy _ => .isFalse id

/-- What decides about the viewers of a connection's media. -/
def role (pc : PeerConnection) : Bool × Option StreamId :=
  (pc.sessionManager.isSome, pc.remoteStream)

/-- The same connections with the same roles, and the same sinks. -/
structure Steady (s₀ s : State) : Prop where
  sinks : s.sinks = s₀.sinks
  roles : ∀ a, (s.peers a).map role = (s₀.peers a).map role

theorem sinks_perform (a : Address) (cause : List UInt8) (effects : List Effect) (s : State) :
    (effects.foldl (State.perform a cause) s).sinks = s.sinks := by
  induction effects generalizing s with
  | nil => rfl
  | cons e effects ih =>
    rw [List.foldl_cons, ih]
    cases e <;> rfl

/-- A datagram changes neither the sinks nor a role. -/
theorem steady_read (hmac : Hmac) (s : State) (d : Datagram) (tail : Memory)
    (env : Environment) : Steady s (s.read hmac d tail env) := by
  cases hpc : s.peers d.dest with
  | none =>
    have hread : s.read hmac d tail env = s := by
      unfold State.read
      simp only [hpc]
    rw [hread]
    exact ⟨rfl, fun _ ↦ rfl⟩
  | some pc =>
    by_cases hbytes : d.bytes = []
    · have hread : s.read hmac d tail env = s.arrive d := by
        unfold State.read
        simp only [hpc, hbytes, if_true]
      rw [hread]
      exact ⟨rfl, fun _ ↦ rfl⟩
    · refine ⟨?_, fun a ↦ ?_⟩
      · unfold State.read
        simp only [hpc, if_neg hbytes, sinks_perform]
        rfl
      · rw [peers_read s hpc hbytes, Function.update_apply]
        split
        case isTrue ha =>
          subst ha
          rw [hpc]
          rfl
        case isFalse => rfl

namespace Steady

theorem trans {s₀ s s' : State} (h : Steady s₀ s) (h' : Steady s s') : Steady s₀ s' :=
  ⟨h'.sinks.trans h.sinks, fun a ↦ (h'.roles a).trans (h.roles a)⟩

variable {hmac : Hmac} {s₀ s s' : State} {l : Label}

theorem isSome (h : Steady s₀ s) (a : Address) : (s.peers a).isSome = (s₀.peers a).isSome := by
  have hroles := congrArg Option.isSome (h.roles a)
  simpa using hroles

theorem liveSinks (h : Steady s₀ s) (stream : StreamId) :
    s.liveSinks stream = s₀.liveSinks stream := by
  simp only [State.liveSinks, h.sinks, h.isSome]

theorem viewers (h : Steady s₀ s) (d : Datagram) (tail : Memory) :
    viewers s d tail = Forwarding.viewers s₀ d tail := by
  have hroles := h.roles d.dest
  unfold Forwarding.viewers
  cases hpc : s.peers d.dest with
  | none =>
    cases hpc₀ : s₀.peers d.dest with
    | none => rfl
    | some pc₀ => simp [hpc, hpc₀] at hroles
  | some pc =>
    cases hpc₀ : s₀.peers d.dest with
    | none => simp [hpc, hpc₀] at hroles
    | some pc₀ =>
      simp only [hpc, hpc₀, Option.map_some, Option.some.injEq, role, Prod.mk.injEq] at hroles
      have hlive : s.liveSinks = s₀.liveSinks := funext h.liveSinks
      simp only [← Option.not_isSome, hroles.1, hroles.2, hlive]

theorem step (h : Steady s₀ s) (hl : Traffic l) (hstep : State.step hmac s l = some s') :
    Steady s₀ s' := by
  refine h.trans ?_
  cases State.step_transition hstep with
  | @receive k d hd tail env =>
    have hread := steady_read hmac { s with inFlight := s.inFlight.eraseIdx k } d tail env
    exact ⟨hread.sinks, hread.roles⟩
  | inject => exact ⟨rfl, fun _ ↦ rfl⟩
  | readNothing => exact ⟨rfl, fun _ ↦ rfl⟩
  | runTask => exact ⟨rfl, fun _ ↦ rfl⟩
  | complete => exact ⟨rfl, fun _ ↦ rfl⟩
  | addStream => cases hl
  | createAnswer => cases hl
  | destroy => cases hl

end Steady

/-- A datagram that is neither STUN nor RTCP. -/
def IsMedia (bytes : List UInt8) (tail : Memory) : Prop :=
  bytes ≠ [] ∧ isStun.value (received bytes tail) = false ∧
    (Compound.isRTCP bytes.length).value (received bytes tail) = false

instance (bytes : List UInt8) (tail : Memory) : Decidable (IsMedia bytes tail) :=
  inferInstanceAs (Decidable (_ ∧ _))

theorem of_mem_viewers {s : State} {d : Datagram} {tail : Memory} {v : Address}
    (hv : v ∈ viewers s d tail) : ∃ pc, s.peers d.dest = some pc ∧ IsMedia d.bytes tail ∧
      ∃ stream, pc.remoteStream = some stream ∧ v ∈ s.liveSinks stream := by
  unfold Forwarding.viewers at hv
  cases hpc : s.peers d.dest with
  | none => simp [hpc] at hv
  | some pc =>
    simp only [hpc] at hv
    split at hv
    case isTrue => cases hv
    case isFalse hmedia =>
      simp only [not_or, Bool.not_eq_true] at hmedia
      obtain ⟨hbytes, hstun, hrtcp, -⟩ := hmedia
      cases hstream : pc.remoteStream with
      | none => simp [hstream] at hv
      | some stream =>
        rw [hstream, Option.elim_some] at hv
        exact ⟨pc, rfl, ⟨hbytes, hstun, hrtcp⟩, stream, hstream, hv⟩

section Requests

open Signalling Broadcast

variable {requests : List Request} {s : Signalling.State}

/-- Every connection that lives has answered the offer of its request. -/
def Backed (requests : List Request) (s : Signalling.State) : Prop :=
  ∀ i pc, s.peers i = some pc → ∃ r, requests[i]? = some r ∧ r.Accepted

theorem Backed.step {r : Request} {s' : Signalling.State} (hmirrors : Mirrors requests s)
    (h : Backed requests s) (hstep : s.step r = some s') : Backed (requests ++ [r]) s' := by
  obtain ⟨⟨s', answer⟩, hserve, rfl⟩ := Option.map_eq_some_iff.mp hstep
  have hkept {i : ℕ} (hi : ∃ r', requests[i]? = some r' ∧ r'.Accepted) :
      ∃ r', (requests ++ [r])[i]? = some r' ∧ r'.Accepted := by
    obtain ⟨r', hr', haccepted⟩ := hi
    have hlt := (List.getElem?_eq_some_iff.mp hr').1
    exact ⟨r', by rw [List.getElem?_append_left hlt, hr'], haccepted⟩
  intro i pc hpc
  cases answer with
  | none =>
    obtain ⟨-, hpeers, -⟩ := refused_of_serve hserve
    exact hkept (h i pc (hpeers ▸ hpc))
  | some answer =>
    obtain ⟨done, hdone, hpeers, -⟩ := answered_of_serve hserve
    simp only [hpeers, Function.update_apply] at hpc
    split at hpc
    case isFalse => exact hkept (h i pc hpc)
    case isTrue hi =>
      have haccepted : r.Accepted := by
        rw [← isSome_answered_iff s r (opened s r) rfl, hdone]
        rfl
      exact ⟨r, by rw [hi, hmirrors.created]; simp, haccepted⟩

theorem publishes_of_audience {v i : ℕ} (hv : v ∈ audience requests i) :
    ∃ p, requests[i]? = some p ∧ p.Publishes := by
  obtain ⟨p, hp, hpub⟩ := publishes_lastPublisher (of_decide_eq_true (List.mem_filter.mp hv).2).2
  rw [List.getElem?_take] at hp
  split at hp
  case isTrue => exact ⟨p, hp, hpub⟩
  case isFalse => cases hp

theorem audience_unique {v i j : ℕ} (hi : v ∈ audience requests i)
    (hj : v ∈ audience requests j) : i = j := by
  have hlast := (of_decide_eq_true (List.mem_filter.mp hi).2).2
  have hlast' := (of_decide_eq_true (List.mem_filter.mp hj).2).2
  exact Option.some.inj (hlast.symm.trans hlast')

/-- The viewers of a datagram, by the requests. -/
theorem mem_viewers_iff (h : Mirrors requests s) (hbacked : Backed requests s) (d : Datagram)
    (tail : Memory) (v : ℕ) : v ∈ viewers (network s) d tail ↔
      IsMedia d.bytes tail ∧ v ∈ audience requests d.dest := by
  constructor
  · intro hv
    obtain ⟨pc, hpc, hmedia, stream, hstream, hlive⟩ := of_mem_viewers hv
    obtain ⟨r, hr, haccepted⟩ := hbacked d.dest pc hpc
    obtain ⟨pc', hpc', hserves⟩ := h.peers d.dest r hr haccepted
    obtain rfl := Option.some.inj (hpc.symm.trans hpc')
    have hremote := hserves.remoteStream
    rw [hstream] at hremote
    split at hremote
    case isFalse => cases hremote
    case isTrue =>
      obtain rfl := Option.some.inj hremote
      refine ⟨hmedia, ?_⟩
      have hsink := (List.mem_filter.mp hlive).1
      change v ∈ (s.sinks d.dest).sinks at hsink
      rwa [h.sinks] at hsink
  · intro hv
    obtain ⟨⟨hbytes, hstun, hrtcp⟩, hv⟩ := hv
    obtain ⟨p, hp, hpub⟩ := publishes_of_audience hv
    rw [viewers_network h hp hpub rfl hbytes hstun hrtcp]
    exact hv

/-- The media that a step delivers to the socket `i`. -/
def mediaTo (i : ℕ) (t : Network.State) : Label → Multiset (List UInt8)
  | .receive k tail _ => (t.inFlight[k]?).elim 0 fun d ↦
      if IsMedia d.bytes tail ∧ d.dest = i then {d.bytes} else 0
  | _ => 0

theorem handed_of_audience (h : Mirrors requests s) (hbacked : Backed requests s) {i v : ℕ}
    (hv : v ∈ audience requests i) {t : Network.State} (ht : Steady (network s) t) (l : Label) :
    handed v t l = mediaTo i t l := by
  cases l with
  | receive k tail env =>
    simp only [handed, mediaTo]
    cases t.inFlight[k]? with
    | none => rfl
    | some d =>
      have hiff : v ∈ viewers t d tail ↔ IsMedia d.bytes tail ∧ d.dest = i := by
        rw [ht.viewers, mem_viewers_iff h hbacked]
        refine and_congr_right fun _ ↦ ⟨fun hd ↦ audience_unique hd hv, ?_⟩
        rintro rfl
        exact hv
      simp only [Option.elim_some, hiff]
  | _ => rfl

theorem handed_of_nobody (h : Mirrors requests s) (hbacked : Backed requests s) {v : ℕ}
    (hv : ∀ i, v ∉ audience requests i) {t : Network.State} (ht : Steady (network s) t)
    (l : Label) : handed v t l = 0 := by
  cases l with
  | receive k tail env =>
    simp only [handed]
    cases t.inFlight[k]? with
    | none => rfl
    | some d =>
      have hnot : v ∉ viewers t d tail := by
        rw [ht.viewers, mem_viewers_iff h hbacked]
        exact fun hd ↦ hv d.dest hd.2
      simp only [Option.elim_some, hnot, if_false]
  | _ => rfl

theorem atMostOneSink_of_audience (h : Mirrors requests s)
    (hone : ∀ i, (audience requests i).length ≤ 1) {t : Network.State}
    (ht : Steady (network s) t) (l : Label) : AtMostOneSink t l := by
  cases l with
  | receive k tail env =>
    intro d pc stream _ _ _ _ _
    have hsinks : (network s).sinks stream = audience requests stream := h.sinks stream
    rw [ht.liveSinks, Network.State.liveSinks, hsinks]
    exact (List.length_filter_le _ _).trans (hone stream)
  | _ => trivial

end Requests

end Spadia.System.Relay
