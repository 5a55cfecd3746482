import Spadia.Media.Fanout
import Spadia.Peer.MediaPath
import Spadia.System.Forwarding

namespace Spadia.System.Viewers

open Foundation TracedRead Read LabelledRun Rtcp Stun.Packet Peer.Connection Peer.MediaPath
open Media Network

/-- The streams and connections of the network, with the address of a connection for its id. -/
def view (s : State) : Fanout.State where
  peers := s.peers
  streams := fun stream ↦ { sinks := s.sinks stream }

def callOf : Label → Option Fanout.Label
  | .addStream a stream => some (.addStream a stream)
  | .destroy a => some (.destroy a)
  | _ => none

/-- The sinks are the same, and so are the live connections with their local streams. -/
structure SameViewers (s s' : Fanout.State) : Prop where
  streams_eq : s'.streams = s.streams
  watch_eq : ∀ id, (s'.peers id).map PeerConnection.localStream =
    (s.peers id).map PeerConnection.localStream

theorem SameViewers.refl (s : Fanout.State) : SameViewers s s := ⟨rfl, fun _ ↦ rfl⟩

theorem SameViewers.delivers {s s' : Fanout.State} (h : SameViewers s s')
    (hs : s.Delivers) : s'.Delivers := by
  rw [Fanout.State.delivers_iff] at hs ⊢
  intro id pc' hpc' stream
  have hwatch := h.watch_eq id
  rw [hpc'] at hwatch
  obtain ⟨pc, hpc, hlocal⟩ := Option.map_eq_some_iff.mp hwatch.symm
  rw [h.streams_eq, ← hlocal]
  exact hs id pc hpc stream

theorem view_setSinks (s : State) (stream : StreamId) (sinks : List Address) :
    view { s with sinks := Function.update s.sinks stream sinks } =
      (view s).setStream stream { sinks } := by
  unfold view Fanout.State.setStream
  congr
  funext i
  by_cases hi : i = stream
  · subst hi
    simp
  · simp [Function.update_of_ne hi]

theorem sameViewers_setPeer {s : State} {a : Address} {pc pc' : PeerConnection}
    (hpc : s.peers a = some pc) (hlocal : pc'.localStream = pc.localStream) :
    SameViewers (view s) (view (s.setPeer a (some pc'))) where
  streams_eq := rfl
  watch_eq id := by
    by_cases hid : id = a
    · subst hid
      simp [view, State.setPeer, hpc, hlocal]
    · simp [view, State.setPeer, Function.update_of_ne hid]

theorem view_foldl_perform (a : Address) (cause : List UInt8) (effects : List Effect) (s : State) :
    view (effects.foldl (State.perform a cause) s) = view s := by
  induction effects generalizing s with
  | nil => rfl
  | cons e effects ih =>
    rw [List.foldl_cons, ih]
    cases e <;> rfl

theorem sameViewers_read (hmac : Hmac) (s : State) (d : Datagram) (tail : TracedRead.Memory)
    (env : Environment) : SameViewers (view s) (view (State.read hmac s d tail env)) := by
  unfold State.read
  split
  case h_1 => exact SameViewers.refl _
  case h_2 pc hpc =>
    split
    case isTrue => exact SameViewers.refl _
    case isFalse =>
      rw [view_foldl_perform]
      exact sameViewers_setPeer hpc (by rw [onSocketData_pc]; rfl)

variable {hmac : Hmac} {s s' : State} {l : Label}

/-- A step of the network is the call on its view, or the view does not notice it. -/
theorem view_step (h : State.step hmac s l = some s') : match callOf l with
    | some call => (view s).step call = some (view s')
    | none => SameViewers (view s) (view s') := by
  cases State.step_transition h with
  | inject => exact SameViewers.refl _
  | @receive k d hd tail env =>
    exact sameViewers_read hmac { s with inFlight := s.inFlight.eraseIdx k } d tail env
  | readNothing => exact SameViewers.refl _
  | runTask => exact SameViewers.refl _
  | complete => exact SameViewers.refl _
  | @addStream a pc hpc stream =>
    have hview : (view s).peers a = some pc := hpc
    simp only [callOf, Fanout.State.step, hview, Option.map_some]
    exact congrArg some (view_setSinks (s.setPeer a (some (pc.addStream stream))) stream _).symm
  | createAnswer hpc offer =>
    exact sameViewers_setPeer hpc (PeerConnection.createAnswer_localStream _ offer _)
  | @destroy a pc hpc =>
    have hview : (view s).peers a = some pc := hpc
    simp only [callOf, Fanout.State.step, hview, Option.map_some, State.removeSink]
    cases pc.localStream with
    | none => rfl
    | some stream => exact congrArg some (view_setSinks (s.setPeer a none) stream _).symm

/-- A step does not move a connection from one stream to another. -/
def Keeps (s : State) (l : Label) : Prop :=
  ∀ call, callOf l = some call → (view s).KeepsStream call

variable {s₀ : State} {labels : List Label}

theorem delivers_of_run (h₀ : (view s₀).Delivers)
    (hkeeps : Along (State.step hmac) Keeps s₀ labels)
    (hrun : run (State.step hmac) s₀ labels = some s) : (view s).Delivers := by
  refine run_invariant (I := fun s ↦ (view s).Delivers) ?_ h₀ hkeeps hrun
  intro s₁ l s₂ h₁ hcall hs₂
  have hview := view_step hs₂
  cases hl : callOf l with
  | none =>
    rw [hl] at hview
    exact hview.delivers h₁
  | some call =>
    rw [hl] at hview
    exact (Fanout.State.delivers_step_iff h₁ hview).mpr (hcall call hl)

/-- In every run in which no connection is moved from one stream to another, a media datagram
that comes to a publisher is queued once, whole, for each connection that watches its stream
then, and for nobody else. -/
theorem media_reaches_viewers (h₀ : (view s₀).Delivers)
    (hkeeps : Along (State.step hmac) Keeps s₀ labels)
    (hrun : run (State.step hmac) s₀ labels = some s) (hs : s.crashed = false) {k : ℕ}
    {d : Datagram} (hd : s.inFlight[k]? = some d) {pc : PeerConnection}
    (hpc : s.peers d.dest = some pc) (hmanager : pc.sessionManager.isSome) {stream : StreamId}
    (hstream : pc.remoteStream = some stream) {tail : Memory} (env : Environment)
    (hbytes : d.bytes ≠ []) (hstun : isStun.value (received d.bytes tail) = false)
    (hrtcp : (Compound.isRTCP d.bytes.length).value (received d.bytes tail) = false) :
    ∃ (s' : State) (watching : List Address),
      State.step hmac s (.receive k tail env) = some s' ∧
      s'.tasks = s.tasks ++ watching.map (fun a ↦ ⟨a, s.nextBuffer, d.bytes.length⟩) ∧
      s'.contents s.nextBuffer = d.bytes ∧
      ∀ a, watching.count a =
        if (s.peers a).bind PeerConnection.localStream = some stream then 1 else 0 := by
  have hwatching : Forwarding.viewers s d tail = s.liveSinks stream := by
    simp [Forwarding.viewers, hpc, hbytes, hstun, hrtcp, hstream, ← Option.not_isSome, hmanager]
  have hstep : State.step hmac s (.receive k tail env) =
      some (State.read hmac { s with inFlight := s.inFlight.eraseIdx k } d tail env) := by
    simp [State.step, hs, hd]
  refine ⟨_, s.liveSinks stream, hstep, ?_, ?_, delivers_of_run h₀ hkeeps hrun stream⟩
  · rw [Forwarding.tasks_read, ← hwatching]
    rfl
  · exact Forwarding.contents_read hmac { s with inFlight := s.inFlight.eraseIdx k }
      (Option.isSome_of_eq_some hpc) tail env

def waiting : State where
  peers a := if a = 1 then some publisher else some default

/-- Two connections get the stream, the first of them ends, and then a packet comes. -/
def joined : List Label :=
  [.addStream 2 0, .addStream 3 0, .destroy 2, .inject BufferLedger.media]

theorem waiting_delivers : (view waiting).Delivers := by
  rw [Fanout.State.delivers_iff]
  intro id pc hpc stream
  have hlocal : pc.localStream = none := by
    have hpc' : (if id = 1 then some publisher else some default) = some pc := hpc
    split at hpc' <;> obtain rfl := Option.some.inj hpc' <;> rfl
  rw [hlocal]
  rfl

theorem media_reaches_third : ∃ s, run (State.step default) waiting joined = some s ∧
    ∃ (s' : State) (watching : List Address),
      State.step default s (.receive 0 (fun _ ↦ 0) default) = some s' ∧
      s'.tasks = s.tasks ++
        watching.map (fun a ↦ ⟨a, s.nextBuffer, BufferLedger.media.bytes.length⟩) ∧
      s'.contents s.nextBuffer = BufferLedger.media.bytes ∧
      ∀ a, watching.count a =
        if (s.peers a).bind PeerConnection.localStream = some 0 then 1 else 0 := by
  have hkeeps : Along (State.step default) Keeps waiting joined := by
    have hfirst (s : State) (a : Address) (hnone : (view s).watched a = none) :
        Keeps s (.addStream a 0) := by
      intro call hcall
      obtain rfl := Option.some.inj hcall
      intro watching hwatching
      rw [hnone] at hwatching
      cases hwatching
    refine ⟨hfirst _ _ rfl, fun s₁ h₁ ↦ ⟨hfirst _ _ ?_, fun _ _ ↦ ⟨?_, fun _ _ ↦ ⟨?_, fun _ _ ↦
      trivial⟩⟩⟩⟩
    · obtain rfl := Option.some.inj h₁
      rfl
    · intro call hcall
      obtain rfl := Option.some.inj hcall
      trivial
    · intro call hcall
      cases hcall
  refine ⟨_, rfl, media_reaches_viewers waiting_delivers hkeeps rfl rfl rfl rfl rfl rfl _ ?_ ?_ ?_⟩
  · decide
  · decide
  · decide

end Spadia.System.Viewers
