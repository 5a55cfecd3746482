import Mathlib.Logic.Function.Basic
import Spadia.Foundation.LabelledRun
import Spadia.Peer.Connection

namespace Spadia.System.Network

open Foundation TracedRead Read Rtp.Packet Stun.Packet Peer.Connection PeerConnection

structure Datagram where
  source : Address
  dest : Address
  bytes : List UInt8
deriving DecidableEq, Repr

/-- A queued `Async` task of `OnMediaData`: the sink sends `size` bytes of a receive buffer. -/
structure Task where
  sink : Address
  buffer : ℕ
  size : ℕ
deriving DecidableEq, Repr

/-- A send that was made, and the datagram whose delivery made it. -/
structure Sent where
  sender : Address
  bytes : List UInt8
  cause : Option (List UInt8)
deriving DecidableEq, Repr

/-- The connections on their sockets, the sinks of every stream, the datagrams in flight and
the buffers: `frees` counts the calls of `free`, `sends` lists the buffers of unfinished
sends. The last members record the history of a run. -/
structure State where
  peers : Address → Option PeerConnection := fun _ ↦ none
  sinks : StreamId → List Address := fun _ ↦ []
  inFlight : List Datagram := []
  contents : ℕ → List UInt8 := fun _ ↦ []
  nextBuffer : ℕ := 0
  tasks : List Task := []
  sends : List ℕ := []
  frees : ℕ → ℕ := fun _ ↦ 0
  crashed : Bool := false
  delivered : List (Address × List UInt8) := []
  sent : List Sent := []
  staleSends : List ℕ := []

/-- What can happen next. Where there is a choice, the label makes it. -/
inductive Label
  | inject (d : Datagram)
  | receive (k : ℕ) (tail : Memory) (env : Environment)
  | readNothing
  | runTask (k : ℕ)
  | complete (k : ℕ)
  | addStream (a : Address) (stream : StreamId)
  | createAnswer (a : Address) (offer : List Media) (fresh : StreamId)
  | destroy (a : Address)

def received (bytes : List UInt8) (tail : Memory) : Memory := fun i ↦ bytes.getD i (tail i)

namespace State

/-- The sinks of a stream whose weak pointer can be locked. -/
def liveSinks (s : State) (stream : StreamId) : List Address :=
  (s.sinks stream).filter fun a ↦ (s.peers a).isSome

def alloc (s : State) (bytes : List UInt8) : State :=
  { s with
    nextBuffer := s.nextBuffer + 1
    contents := Function.update s.contents s.nextBuffer bytes }

def free (s : State) (buffer : ℕ) : State :=
  { s with frees := Function.update s.frees buffer (s.frees buffer + 1) }

def udpSend (s : State) (sender dest : Address) (buffer : ℕ) (bytes : List UInt8)
    (cause : Option (List UInt8)) : State :=
  { s with
    inFlight := s.inFlight ++ [⟨sender, dest, bytes⟩]
    sends := s.sends ++ [buffer]
    sent := s.sent ++ [⟨sender, bytes, cause⟩]
    staleSends := if s.frees buffer = 0 then s.staleSends else s.staleSends ++ [buffer] }

/-- An effect of `OnSocketData` at address `a`. `OnRTP` hands the packet to every live sink,
which queues a task for it. -/
def perform (a : Address) (cause : List UInt8) (s : State) : Effect → State
  | .send dest out =>
    (s.alloc (ByteBuffer.bytes out.1 0 out.2)).udpSend a dest s.nextBuffer
      (ByteBuffer.bytes out.1 0 out.2) (some cause)
  | .onRTP stream pkt =>
    { s with tasks := s.tasks ++ (s.liveSinks stream).map fun sink ↦ ⟨sink, pkt.data, pkt.size⟩ }

def arrive (s : State) (d : Datagram) : State :=
  { s.alloc d.bytes with delivered := s.delivered ++ [(d.dest, d.bytes)] }

def settle (s : State) (a : Address) (outcome : Outcome) : State :=
  { s with
    peers := Function.update s.peers a (some outcome.pc)
    crashed := outcome.fault.isSome }

variable (hmac : Hmac)

def read (s : State) (d : Datagram) (tail : Memory) (env : Environment) : State :=
  match s.peers d.dest with
  | none => s
  | some pc =>
    if d.bytes = [] then s.arrive d
    else
      let outcome := (onSocketData hmac env pc s.nextBuffer d.bytes.length d.source).value
        (received d.bytes tail)
      outcome.effects.foldl (perform d.dest d.bytes) ((s.arrive d).settle d.dest outcome)

def runTask (s : State) (t : Task) (pc : PeerConnection) : State :=
  s.udpSend t.sink pc.lastRemote t.buffer ((s.contents t.buffer).take t.size) none

def removeSink (s : State) (a : Address) (pc : PeerConnection) : State :=
  match pc.localStream with
  | none => s
  | some stream =>
    { s with sinks := Function.update s.sinks stream ((s.sinks stream).filter (· ≠ a)) }

def addSink (s : State) (stream : StreamId) (a : Address) : State :=
  { s with
    sinks := Function.update s.sinks stream
      (if a ∈ s.sinks stream then s.sinks stream else s.sinks stream ++ [a]) }

def setPeer (s : State) (a : Address) (pc : Option PeerConnection) : State :=
  { s with peers := Function.update s.peers a pc }

def step (s : State) (l : Label) : Option State :=
  -- A run ends where a null pointer was used.
  if s.crashed then none
  else match l with
  | .inject d => some { s with inFlight := s.inFlight ++ [d] }
  | .receive k tail env => (s.inFlight[k]?).map fun d ↦
      read hmac { s with inFlight := s.inFlight.eraseIdx k } d tail env
  | .readNothing => some ((s.alloc []).free s.nextBuffer)
  | .runTask k => (s.tasks[k]?).bind fun t ↦ (s.peers t.sink).map fun pc ↦
      runTask { s with tasks := s.tasks.eraseIdx k } t pc
  | .complete k => (s.sends[k]?).map fun buffer ↦
      free { s with sends := s.sends.eraseIdx k } buffer
  | .addStream a stream => (s.peers a).map fun pc ↦
      (s.setPeer a (some (pc.addStream stream))).addSink stream a
  | .createAnswer a offer fresh =>
      if s.sinks fresh = [] then
        (s.peers a).map fun pc ↦ s.setPeer a (some (pc.createAnswer offer fresh))
      else none
  | .destroy a =>
      -- A queued task holds the connection.
      if s.tasks.any (·.sink = a) then none
      else (s.peers a).map fun pc ↦ (s.removeSink a pc).setPeer a none

inductive Transition (s : State) : Label → State → Prop
  | inject (d : Datagram) : Transition s (.inject d) { s with inFlight := s.inFlight ++ [d] }
  | receive {k : ℕ} {d : Datagram} (hd : s.inFlight[k]? = some d) (tail : Memory)
      (env : Environment) : Transition s (.receive k tail env)
        (read hmac { s with inFlight := s.inFlight.eraseIdx k } d tail env)
  | readNothing : Transition s .readNothing ((s.alloc []).free s.nextBuffer)
  | runTask {k : ℕ} {t : Task} (ht : s.tasks[k]? = some t) {pc : PeerConnection}
      (hpc : s.peers t.sink = some pc) :
      Transition s (.runTask k) (State.runTask { s with tasks := s.tasks.eraseIdx k } t pc)
  | complete {k buffer : ℕ} (hk : s.sends[k]? = some buffer) :
      Transition s (.complete k) (free { s with sends := s.sends.eraseIdx k } buffer)
  | addStream {a : Address} {pc : PeerConnection} (hpc : s.peers a = some pc)
      (stream : StreamId) : Transition s (.addStream a stream)
        ((s.setPeer a (some (pc.addStream stream))).addSink stream a)
  | createAnswer {a : Address} {pc : PeerConnection} (hpc : s.peers a = some pc)
      (offer : List Media) {fresh : StreamId} (hfresh : s.sinks fresh = []) :
      Transition s (.createAnswer a offer fresh)
        (s.setPeer a (some (pc.createAnswer offer fresh)))
  | destroy {a : Address} {pc : PeerConnection} (hpc : s.peers a = some pc)
      (htasks : s.tasks.any (·.sink = a) = false) :
      Transition s (.destroy a) ((s.removeSink a pc).setPeer a none)

variable {hmac}

theorem step_transition {s s' : State} {l : Label} (h : step hmac s l = some s') :
    Transition hmac s l s' := by
  unfold step at h
  split at h
  · cases h
  cases l with
  | inject d =>
    obtain rfl := Option.some.inj h
    exact .inject d
  | receive k tail env =>
    obtain ⟨d, hd, rfl⟩ := Option.map_eq_some_iff.mp h
    exact .receive hd tail env
  | readNothing =>
    obtain rfl := Option.some.inj h
    exact .readNothing
  | runTask k =>
    obtain ⟨t, ht, h⟩ := Option.bind_eq_some_iff.mp h
    obtain ⟨pc, hpc, rfl⟩ := Option.map_eq_some_iff.mp h
    exact .runTask ht hpc
  | complete k =>
    obtain ⟨buffer, hk, rfl⟩ := Option.map_eq_some_iff.mp h
    exact .complete hk
  | addStream a stream =>
    obtain ⟨pc, hpc, rfl⟩ := Option.map_eq_some_iff.mp h
    exact .addStream hpc stream
  | createAnswer a offer fresh =>
    simp only at h
    split at h
    · obtain ⟨pc, hpc, rfl⟩ := Option.map_eq_some_iff.mp h
      exact .createAnswer hpc offer ‹_›
    · cases h
  | destroy a =>
    simp only at h
    split at h
    · cases h
    · obtain ⟨pc, hpc, rfl⟩ := Option.map_eq_some_iff.mp h
      exact .destroy hpc (Bool.not_eq_true _ ▸ ‹_›)

/-- The start of a run: any connections and any sinks, and nothing under way. -/
structure Initial (s : State) : Prop where
  inFlight : s.inFlight = []
  tasks : s.tasks = []
  sends : s.sends = []
  frees : ∀ b, s.frees b = 0
  delivered : s.delivered = []
  sent : s.sent = []
  staleSends : s.staleSends = []

end State

end Spadia.System.Network
