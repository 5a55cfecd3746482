import Spadia.Foundation.LabelledRun
import Spadia.Server.PcTable

namespace Spadia.Media.Fanout

open Foundation LabelledRun Peer.Connection PeerConnection Server.PcTable

/-- The sinks are weak pointers under the unique ids of their connections; the id stands
for both. -/
structure MediaStream where
  sinks : List PeerId := []

namespace MediaStream

variable (stream : MediaStream)

def addSink (name : PeerId) : MediaStream :=
  { stream with
    sinks := if name ∈ stream.sinks then stream.sinks else stream.sinks ++ [name] }

def removeSink (name : PeerId) : MediaStream :=
  { stream with sinks := stream.sinks.filter (· ≠ name) }

/-- The calls of `OnMediaData`. The pointer to a connection that is gone does not lock. -/
def onRTP (peers : PeerId → Option PeerConnection) : List PeerId :=
  stream.sinks.filter fun id ↦ (peers id).isSome

theorem count_addSink (name id : PeerId) : (stream.addSink name).sinks.count id =
    if id = name then max (stream.sinks.count id) 1 else stream.sinks.count id := by
  rw [addSink]
  by_cases hmem : name ∈ stream.sinks
  · rw [if_pos hmem]
    split
    case isTrue h =>
      rw [h]
      exact (max_eq_left (List.count_pos_iff.mpr hmem)).symm
    case isFalse => rfl
  · rw [if_neg hmem, List.count_append]
    split
    case isTrue h =>
      rw [h, List.count_eq_zero_of_not_mem hmem, List.count_singleton_self]
      rfl
    case isFalse h =>
      have hother : List.count id [name] = 0 := List.count_eq_zero_of_not_mem (by simpa using h)
      rw [hother, Nat.add_zero]

theorem count_removeSink {name id : PeerId} (h : id ≠ name) :
    (stream.removeSink name).sinks.count id = stream.sinks.count id :=
  List.count_filter (by simpa using h)

theorem count_onRTP (peers : PeerId → Option PeerConnection) (id : PeerId) :
    (stream.onRTP peers).count id = if (peers id).isSome then stream.sinks.count id else 0 := by
  split
  case isTrue h => exact List.count_filter h
  case isFalse h =>
    apply List.count_eq_zero_of_not_mem
    intro hmem
    exact h (List.mem_filter.mp hmem).2

end MediaStream

structure State where
  peers : PeerId → Option PeerConnection
  streams : StreamId → MediaStream := fun _ ↦ {}

inductive Label
  | addStream (id : PeerId) (stream : StreamId)
  | destroy (id : PeerId)
  | onRTP (stream : StreamId)

namespace State

variable (s : State)

def setPeer (id : PeerId) (pc : Option PeerConnection) : State :=
  { s with peers := Function.update s.peers id pc }

def setStream (stream : StreamId) (value : MediaStream) : State :=
  { s with streams := Function.update s.streams stream value }

def step : Label → Option State
  | .addStream id stream => (s.peers id).map fun pc ↦
    (s.setPeer id (some (pc.addStream stream))).setStream stream ((s.streams stream).addSink id)
  | .destroy id => (s.peers id).map fun pc ↦
    match pc.localStream with
    | some stream => (s.setPeer id none).setStream stream ((s.streams stream).removeSink id)
    | none => s.setPeer id none
  | .onRTP _ => some s

def watched (id : PeerId) : Option StreamId := (s.peers id).bind PeerConnection.localStream

/-- A packet given to a stream goes once to each connection that watches it, and to no other. -/
def Delivers : Prop :=
  ∀ stream id, ((s.streams stream).onRTP s.peers).count id =
    if s.watched id = some stream then 1 else 0

/-- A connection that has a stream is not given another one. -/
def KeepsStream : Label → Prop
  | .addStream id stream => ∀ watching, s.watched id = some watching → watching = stream
  | .destroy _ | .onRTP _ => True

variable {s} {s' : State}

theorem delivers_iff : Delivers s ↔ ∀ id pc, s.peers id = some pc → ∀ stream,
    (s.streams stream).sinks.count id = if pc.localStream = some stream then 1 else 0 := by
  constructor
  · intro h id pc hpc stream
    have hcount := h stream id
    rwa [MediaStream.count_onRTP, watched, hpc] at hcount
  · intro h stream id
    rw [MediaStream.count_onRTP, watched]
    cases hpc : s.peers id with
    | none => rfl
    | some pc => exact h id pc hpc stream

theorem peers_setPeer (id : PeerId) (pc : Option PeerConnection) :
    (s.setPeer id pc).peers id = pc := Function.update_self ..

theorem peers_setPeer_of_ne {id id' : PeerId} (pc : Option PeerConnection) (h : id' ≠ id) :
    (s.setPeer id pc).peers id' = s.peers id' := Function.update_of_ne h ..

theorem streams_setStream (stream stream' : StreamId) (value : MediaStream) :
    (s.setStream stream value).streams stream' =
      if stream' = stream then value else s.streams stream' :=
  Function.update_apply ..

theorem delivers_of_others (h : Delivers s) {id : PeerId}
    (hpeers : ∀ id', id' ≠ id → s'.peers id' = s.peers id')
    (hcount : ∀ id', id' ≠ id → ∀ stream,
      (s'.streams stream).sinks.count id' = (s.streams stream).sinks.count id')
    (hself : ∀ pc, s'.peers id = some pc → ∀ stream,
      (s'.streams stream).sinks.count id = if pc.localStream = some stream then 1 else 0) :
    Delivers s' := by
  rw [delivers_iff] at h ⊢
  intro id' pc hpc stream
  by_cases hid : id' = id
  · subst hid
    exact hself pc hpc stream
  · rw [hcount id' hid]
    exact h id' pc (by rw [← hpeers id' hid, hpc]) stream

theorem delivers_addStream (h : Delivers s) {id : PeerId} {stream : StreamId}
    (hs' : s.step (.addStream id stream) = some s')
    (hkeeps : s.KeepsStream (.addStream id stream)) : Delivers s' := by
  obtain ⟨pc, hpc, rfl⟩ := Option.map_eq_some_iff.mp hs'
  apply delivers_of_others h
  · intro id' hid
    exact peers_setPeer_of_ne _ hid
  · intro id' hid stream'
    rw [streams_setStream]
    split
    case isTrue heq => rw [MediaStream.count_addSink, if_neg hid, heq]
    case isFalse => rfl
  · intro pc' hpc' stream'
    obtain rfl : pc.addStream stream = pc' :=
      Option.some.inj ((peers_setPeer ..).symm.trans hpc')
    have hold := delivers_iff.mp h id pc hpc
    rw [streams_setStream]
    split
    case isTrue heq =>
      have hnew : (pc.addStream stream).localStream = some stream := rfl
      rw [MediaStream.count_addSink, if_pos rfl, heq, if_pos hnew, hold]
      split <;> rfl
    case isFalse hne =>
      have hold' : pc.localStream ≠ some stream' := by
        intro hlocal
        apply hne
        apply hkeeps
        rw [watched, hpc]
        exact hlocal
      have hnew : (pc.addStream stream).localStream ≠ some stream' := by
        intro hlocal
        exact hne (Option.some.inj hlocal).symm
      rw [if_neg hnew]
      exact (hold stream').trans (if_neg hold')

theorem keepsStream_of_delivers (h : Delivers s) {id : PeerId} {stream : StreamId}
    (hs' : s.step (.addStream id stream) = some s') (h' : Delivers s') :
    s.KeepsStream (.addStream id stream) := by
  obtain ⟨pc, hpc, rfl⟩ := Option.map_eq_some_iff.mp hs'
  intro watching hwatching
  by_contra hne
  have hlocal : pc.localStream = some watching := by
    rwa [watched, hpc] at hwatching
  have hother : (pc.addStream stream).localStream ≠ some watching := by
    intro heq
    exact hne (Option.some.inj heq).symm
  have hold := delivers_iff.mp h id pc hpc watching
  have hnew := delivers_iff.mp h' id (pc.addStream stream) (peers_setPeer ..) watching
  rw [if_pos hlocal] at hold
  rw [streams_setStream, if_neg hne, if_neg hother] at hnew
  exact absurd (hold.symm.trans hnew) one_ne_zero

theorem delivers_destroy (h : Delivers s) {id : PeerId} (hs' : s.step (.destroy id) = some s') :
    Delivers s' := by
  obtain ⟨pc, hpc, rfl⟩ := Option.map_eq_some_iff.mp hs'
  cases pc.localStream with
  | none =>
    apply delivers_of_others h
    · intro id' hid
      exact peers_setPeer_of_ne _ hid
    · intro id' _ stream
      rfl
    · intro pc' hpc'
      cases (peers_setPeer ..).symm.trans hpc'
  | some watching =>
    apply delivers_of_others h
    · intro id' hid
      exact peers_setPeer_of_ne _ hid
    · intro id' hid stream
      rw [streams_setStream]
      split
      case isTrue heq => rw [MediaStream.count_removeSink _ hid, heq]
      case isFalse => rfl
    · intro pc' hpc'
      cases (peers_setPeer ..).symm.trans hpc'

theorem delivers_step_iff {l : Label} (h : Delivers s) (hs' : s.step l = some s') :
    Delivers s' ↔ s.KeepsStream l := by
  cases l with
  | addStream id stream => exact ⟨keepsStream_of_delivers h hs', delivers_addStream h hs'⟩
  | destroy id => exact iff_of_true (delivers_destroy h hs') trivial
  | onRTP stream =>
    obtain rfl := Option.some.inj hs'
    exact iff_of_true h trivial

theorem keepsStream_of_step_eq_none {l : Label} (hs : s.step l = none) : s.KeepsStream l := by
  cases l with
  | addStream id stream =>
    intro watching hwatching
    rw [watched, Option.map_eq_none_iff.mp hs] at hwatching
    cases hwatching
  | destroy id => trivial
  | onRTP stream => trivial

end State

open State

/-- In a run, packets go to the present viewers of their stream exactly as long as no connection
that has a stream is given another one. -/
theorem run_delivers_iff (peers : PeerId → Option PeerConnection)
    (hpeers : ∀ id pc, peers id = some pc → pc.localStream = none) (labels : List Label) :
    (∀ ls, ls <+: labels → ∀ s, run step { peers } ls = some s → Delivers s) ↔
      Along step KeepsStream { peers } labels := by
  apply forall_prefix_iff_along
  · intro s l hs
    exact keepsStream_of_step_eq_none hs
  · intro s l s' h hs'
    exact delivers_step_iff h hs'
  · rw [delivers_iff]
    intro id pc hpc stream
    rw [hpeers id pc hpc]
    rfl

def shared : List Label := [.addStream 0 1, .addStream 1 1, .onRTP 1, .destroy 0]

theorem shared_delivers : ∃ s, run step { peers := fun _ ↦ some default } shared = some s ∧
    Delivers s := by
  have hunset : ∀ (id : PeerId) (pc : PeerConnection),
      (some default : Option PeerConnection) = some pc → pc.localStream = none := by
    intro id pc hpc
    obtain rfl := Option.some.inj hpc
    rfl
  have hkeeps : Along step KeepsStream { peers := fun _ ↦ some default } shared := by
    have hfirst : ∀ watching, (none : Option StreamId) = some watching → watching = 1 := by simp
    refine ⟨hfirst, fun s₁ hs₁ ↦ ?_⟩
    obtain rfl := Option.some.inj hs₁
    exact ⟨hfirst, fun _ _ ↦ ⟨trivial, fun _ _ ↦ ⟨trivial, fun _ _ ↦ trivial⟩⟩⟩
  obtain ⟨s, hs⟩ : ∃ s, run step { peers := fun _ ↦ some default } shared = some s := ⟨_, rfl⟩
  exact ⟨s, hs, (run_delivers_iff _ hunset shared).mpr hkeeps shared (List.prefix_refl _) s hs⟩

/-- After its change to stream `2`, a connection still gets the packets of stream `1`. -/
theorem switched_still_delivered : ∃ s, run step { peers := fun _ ↦ some default }
    [.addStream 0 1, .addStream 0 2] = some s ∧ s.watched 0 = some 2 ∧
      (s.streams 1).onRTP s.peers = [0] ∧ ¬ Delivers s := by
  refine ⟨_, rfl, rfl, rfl, ?_⟩
  intro h
  exact absurd (h 1 0) (by decide)

end Spadia.Media.Fanout
