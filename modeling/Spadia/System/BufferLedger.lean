import Mathlib.Data.List.Count
import Mathlib.Data.List.Perm.Basic
import Spadia.System.Network

namespace Spadia.System.BufferLedger

open Foundation TracedRead Read LabelledRun Rtcp Stun.Packet Peer.Connection PeerConnection
open Network State

/-- The tickets of a buffer: tasks that will send from it, sends that will free it, and the
calls of `free` that were made. -/
def tickets (s : State) (b : ℕ) : ℕ :=
  s.tasks.countP (fun t ↦ t.buffer = b) + s.sends.count b + s.frees b

/-- No buffer has two tickets, and a buffer that is not allocated yet has none. -/
structure Balanced (s : State) : Prop where
  ticket_le : ∀ b, tickets s b ≤ 1
  ticket_fresh : ∀ b, s.nextBuffer ≤ b → tickets s b = 0
  no_stale : s.staleSends = []

theorem tickets_udpSend (s : State) (sender dest : Address) (buffer : ℕ) (bytes : List UInt8)
    (cause : Option (List UInt8)) (b : ℕ) :
    tickets (s.udpSend sender dest buffer bytes cause) b =
      tickets s b + if buffer = b then 1 else 0 := by
  by_cases h : buffer = b
  · simp [tickets, udpSend, h]
    omega
  · simp [tickets, udpSend, h]

theorem tickets_free (s : State) (buffer b : ℕ) :
    tickets (s.free buffer) b = tickets s b + if buffer = b then 1 else 0 := by
  by_cases h : buffer = b
  · simp [tickets, free, h]
    omega
  · have h' : b ≠ buffer := Ne.symm h
    simp [tickets, free, h, h']

variable {s : State}

namespace Balanced

theorem udpSend_alloc (h : Balanced s) (contents : List UInt8) (sender dest : Address)
    (bytes : List UInt8) (cause : Option (List UInt8)) :
    Balanced ((s.alloc contents).udpSend sender dest s.nextBuffer bytes cause) := by
  have halloc (b : ℕ) : tickets (s.alloc contents) b = tickets s b := rfl
  have hfresh := h.ticket_fresh s.nextBuffer (le_refl _)
  refine ⟨fun b ↦ ?_, fun b hb ↦ ?_, ?_⟩
  · rw [tickets_udpSend, halloc]
    split
    case isTrue heq => rw [← heq, hfresh]
    case isFalse => exact h.ticket_le b
  · have hb' : s.nextBuffer + 1 ≤ b := hb
    rw [tickets_udpSend, halloc, h.ticket_fresh b (by omega), if_neg (by omega)]
  · have hzero : s.frees s.nextBuffer = 0 := by
      unfold tickets at hfresh
      omega
    simp only [udpSend, alloc, hzero, if_true, h.no_stale]

theorem free_alloc (h : Balanced s) (contents : List UInt8) :
    Balanced ((s.alloc contents).free s.nextBuffer) := by
  have halloc (b : ℕ) : tickets (s.alloc contents) b = tickets s b := rfl
  refine ⟨fun b ↦ ?_, fun b hb ↦ ?_, h.no_stale⟩
  · rw [tickets_free, halloc]
    split
    case isTrue heq => rw [← heq, h.ticket_fresh s.nextBuffer (le_refl _)]
    case isFalse => exact h.ticket_le b
  · have hb' : s.nextBuffer + 1 ≤ b := hb
    rw [tickets_free, halloc, h.ticket_fresh b (by omega), if_neg (by omega)]

/-- A receive buffer gets its one ticket from the only sink that is there. -/
theorem perform_onRTP (h : Balanced s) (a : Address) (cause : List UInt8) {stream : StreamId}
    (hlive : (s.liveSinks stream).length ≤ 1) {pkt : Rtp.Packet.RTPPacket}
    (hzero : tickets s pkt.data = 0) (hlt : pkt.data < s.nextBuffer) :
    Balanced (s.perform a cause (.onRTP stream pkt)) := by
  have htickets (b : ℕ) : tickets (s.perform a cause (.onRTP stream pkt)) b =
      tickets s b + if pkt.data = b then (s.liveSinks stream).length else 0 := by
    by_cases hb : pkt.data = b
    · simp [tickets, perform, hb, List.countP_map, Function.comp_def]
      omega
    · simp [tickets, perform, hb, List.countP_map, Function.comp_def]
  refine ⟨fun b ↦ ?_, fun b hb ↦ ?_, h.no_stale⟩
  · rw [htickets]
    split
    case isTrue heq => rw [← heq, hzero]; omega
    case isFalse => exact h.ticket_le b
  · have hb' : s.nextBuffer ≤ b := hb
    rw [htickets, h.ticket_fresh b hb', if_neg (by omega)]

theorem runTask (h : Balanced s) {k : ℕ} {t : Task} (ht : s.tasks[k]? = some t)
    (pc : PeerConnection) : Balanced (State.runTask { s with tasks := s.tasks.eraseIdx k } t pc) := by
  obtain ⟨hk, rfl⟩ := List.getElem?_eq_some_iff.mp ht
  have hmoved (b : ℕ) :
      tickets (State.runTask { s with tasks := s.tasks.eraseIdx k } s.tasks[k] pc) b =
        tickets s b := by
    have hperm := (List.getElem_cons_eraseIdx_perm hk).countP_eq
      (fun t : Task ↦ t.buffer = b)
    rw [List.countP_cons] at hperm
    rw [State.runTask, tickets_udpSend]
    simp only [tickets, decide_eq_true_eq] at hperm ⊢
    omega
  have hzero : s.frees s.tasks[k].buffer = 0 := by
    have hle := h.ticket_le s.tasks[k].buffer
    have hpos : 0 < s.tasks.countP (fun t ↦ t.buffer = s.tasks[k].buffer) :=
      List.countP_pos_iff.mpr ⟨_, List.getElem_mem hk, by simp⟩
    unfold tickets at hle
    omega
  refine ⟨fun b ↦ (hmoved b).trans_le (h.ticket_le b),
    fun b hb ↦ (hmoved b).trans (h.ticket_fresh b hb), ?_⟩
  simp only [State.runTask, udpSend, hzero, if_true, h.no_stale]

theorem complete (h : Balanced s) {k buffer : ℕ} (hk : s.sends[k]? = some buffer) :
    Balanced (free { s with sends := s.sends.eraseIdx k } buffer) := by
  obtain ⟨hlt, rfl⟩ := List.getElem?_eq_some_iff.mp hk
  have hmoved (b : ℕ) : tickets (free { s with sends := s.sends.eraseIdx k } s.sends[k]) b =
      tickets s b := by
    have hperm := (List.getElem_cons_eraseIdx_perm hlt).count_eq b
    rw [List.count_cons] at hperm
    rw [tickets_free]
    simp only [tickets, beq_iff_eq] at hperm ⊢
    omega
  exact ⟨fun b ↦ (hmoved b).trans_le (h.ticket_le b),
    fun b hb ↦ (hmoved b).trans (h.ticket_fresh b hb), h.no_stale⟩

end Balanced

theorem perform_feedback (h : Balanced s) (a : Address) (cause : List UInt8)
    (effects : List Effect) (hsend : ∀ e ∈ effects, ∃ dest out, e = .send dest out) {b : ℕ}
    (hzero : tickets s b = 0) (hlt : b < s.nextBuffer) :
    Balanced (effects.foldl (perform a cause) s) ∧
      tickets (effects.foldl (perform a cause) s) b = 0 ∧
      b < (effects.foldl (perform a cause) s).nextBuffer ∧
      (effects.foldl (perform a cause) s).liveSinks = s.liveSinks := by
  induction effects generalizing s with
  | nil => exact ⟨h, hzero, hlt, rfl⟩
  | cons e effects ih =>
    rw [List.forall_mem_cons] at hsend
    obtain ⟨⟨dest, out, rfl⟩, hsend⟩ := hsend
    have hzero' : tickets (s.perform a cause (.send dest out)) b = 0 := by
      rw [perform, tickets_udpSend, if_neg (by omega)]
      exact hzero
    exact ih (h.udpSend_alloc _ _ _ _ _) hsend hzero' (Nat.lt_succ_of_lt hlt)

theorem liveSinks_settle (s : State) {d : Datagram} (h : (s.peers d.dest).isSome)
    (outcome : Outcome) : ((s.arrive d).settle d.dest outcome).liveSinks = s.liveSinks := by
  funext stream
  refine List.filter_congr fun b _ ↦ ?_
  by_cases hb : b = d.dest
  · simp [settle, hb, h]
  · simp [settle, Function.update_of_ne hb, arrive, alloc]

/-- There is at most one live sink when a datagram goes to a stream. -/
def AtMostOneSink (s : State) : Label → Prop
  | .receive k tail _ => ∀ d pc stream, s.inFlight[k]? = some d → s.peers d.dest = some pc →
      pc.remoteStream = some stream → isStun.value (received d.bytes tail) = false →
      (Compound.isRTCP d.bytes.length).value (received d.bytes tail) = false →
      (s.liveSinks stream).length ≤ 1
  | _ => True

theorem Balanced.read (h : Balanced s) (hmac : Hmac) {d : Datagram} {tail : Memory}
    (env : Environment)
    (hsink : ∀ pc stream, s.peers d.dest = some pc → pc.remoteStream = some stream →
      isStun.value (received d.bytes tail) = false →
      (Compound.isRTCP d.bytes.length).value (received d.bytes tail) = false →
      (s.liveSinks stream).length ≤ 1) : Balanced (s.read hmac d tail env) := by
  have harrive : Balanced (s.arrive d) :=
    ⟨h.ticket_le, fun b hb ↦ h.ticket_fresh b (Nat.le_of_succ_le hb), h.no_stale⟩
  unfold State.read
  cases hpc : s.peers d.dest with
  | none => exact h
  | some pc =>
    simp only
    split
    · exact harrive
    · have hlive := liveSinks_settle s (Option.isSome_of_eq_some hpc)
      have hreaction := onSocketData_reaction hmac env pc s.nextBuffer d.bytes.length d.source
        (received d.bytes tail)
      generalize (onSocketData hmac env pc s.nextBuffer d.bytes.length d.source).value
        (received d.bytes tail) = outcome at hreaction
      have hstart : Balanced ((s.arrive d).settle d.dest outcome) :=
        ⟨harrive.ticket_le, harrive.ticket_fresh, harrive.no_stale⟩
      cases hreaction with
      | null => exact hstart
      | reply => exact hstart.udpSend_alloc _ _ _ _ _
      | rtcp => exact hstart
      | unanswered => exact hstart
      | @rtp hstun hrtcp _ feedback packet hdata hsize =>
        have hsends : ∀ e ∈ (feedback.map fun p ↦ Effect.send d.source p.serialize).toList,
            ∃ dest out, e = .send dest out := by
          intro e he
          obtain ⟨p, -, rfl⟩ := by simpa using he
          exact ⟨_, _, rfl⟩
        -- The feedback goes out from another buffer; the receive buffer still has no ticket.
        obtain ⟨hbal, hzero, hlt, hsinks⟩ := perform_feedback hstart d.dest d.bytes _ hsends
          (h.ticket_fresh s.nextBuffer (le_refl _)) (Nat.lt_succ_self _)
        rw [List.foldl_append]
        cases hstream : pc.remoteStream with
        | none => simpa [hstream] using hbal
        | some stream =>
          rw [← hdata] at hzero hlt
          simp only [hstream, Option.map_some, Option.toList_some] at hbal hzero hlt hsinks ⊢
          refine hbal.perform_onRTP d.dest d.bytes ?_ hzero hlt
          rw [hsinks, hlive]
          exact hsink pc stream hpc hstream hstun hrtcp

theorem Balanced.step {hmac : Hmac} {s s' : State} {l : Label} (h : Balanced s)
    (hsink : AtMostOneSink s l) (hstep : State.step hmac s l = some s') : Balanced s' := by
  cases step_transition hstep with
  | inject => exact ⟨h.ticket_le, h.ticket_fresh, h.no_stale⟩
  | @receive k d hd tail env =>
    have herased : Balanced { s with inFlight := s.inFlight.eraseIdx k } :=
      ⟨h.ticket_le, h.ticket_fresh, h.no_stale⟩
    exact herased.read hmac env fun pc stream hpc ↦ hsink d pc stream hd hpc
  | readNothing => exact h.free_alloc []
  | runTask ht => exact h.runTask ht _
  | complete hk => exact h.complete hk
  | addStream => exact ⟨h.ticket_le, h.ticket_fresh, h.no_stale⟩
  | createAnswer => exact ⟨h.ticket_le, h.ticket_fresh, h.no_stale⟩
  | @destroy a pc =>
    unfold removeSink
    split <;> exact ⟨h.ticket_le, h.ticket_fresh, h.no_stale⟩

theorem Balanced.initial (h : Initial s) : Balanced s := by
  have hzero (b : ℕ) : tickets s b = 0 := by simp [tickets, h.tasks, h.sends, h.frees]
  exact ⟨fun b ↦ by simp [hzero], fun b _ ↦ hzero b, h.staleSends⟩

theorem buffer_released_once {hmac : Hmac} {s₀ s : State} {labels : List Label} (h₀ : Initial s₀)
    (hsink : Along (State.step hmac) AtMostOneSink s₀ labels)
    (hrun : run (State.step hmac) s₀ labels = some s) :
    (∀ b, s.frees b ≤ 1) ∧ s.staleSends = [] := by
  have hbal : Balanced s := run_invariant (fun _ _ _ h hsink hstep ↦ h.step hsink hstep)
    (Balanced.initial h₀) hsink hrun
  refine ⟨fun b ↦ le_trans ?_ (hbal.ticket_le b), hbal.no_stale⟩
  exact Nat.le_add_left _ _

def broadcast (viewers : List Address) : State where
  peers a :=
    if a = 1 then some ((default : PeerConnection).createAnswer [⟨.sendonly, [], [], []⟩] 0)
    else if a ∈ viewers then some default
    else none
  sinks stream := if stream = 0 then viewers else []

theorem initial_broadcast (viewers : List Address) : Initial (broadcast viewers) :=
  ⟨rfl, rfl, rfl, fun _ ↦ rfl, rfl, rfl, rfl⟩

def media : Datagram := ⟨9, 1, [0x80, 96, 0, 1, 0, 0, 0, 0, 0, 0, 0, 7]⟩

def forwardOnce : List Label :=
  [.inject media, .receive 0 (fun _ ↦ 0) default, .runTask 0, .complete 0]

theorem oneViewer_released_once : Initial (broadcast [2]) ∧
    ∃ s, run (State.step default) (broadcast [2]) forwardOnce = some s ∧
      (∀ b, s.frees b ≤ 1) ∧ s.staleSends = [] := by
  have hsink : Along (State.step default) AtMostOneSink (broadcast [2]) forwardOnce := by
    refine ⟨trivial, fun s₁ h₁ ↦ ⟨?_, fun s₂ _ ↦ ⟨trivial, fun s₃ _ ↦ ⟨trivial, fun _ _ ↦ trivial⟩⟩⟩⟩
    obtain rfl := Option.some.inj h₁
    intro d pc stream hd hpc hstream _ _
    obtain rfl := Option.some.inj hd
    obtain rfl := Option.some.inj hpc
    obtain rfl := Option.some.inj hstream
    decide
  have hsome : (run (State.step default) (broadcast [2]) forwardOnce).isSome := by decide +kernel
  obtain ⟨s, hs⟩ := Option.isSome_iff_exists.mp hsome
  exact ⟨initial_broadcast _, s, hs, buffer_released_once (initial_broadcast _) hsink hs⟩

/-- With two viewers the second send is made from a buffer that is free already, and frees
it again. -/
theorem twoViewers_release_twice : Initial (broadcast [2, 3]) ∧
    (run (State.step default) (broadcast [2, 3]) (forwardOnce ++ [.runTask 0, .complete 0])).map
      (fun s ↦ (s.frees 0, s.staleSends)) = some (2, [0]) :=
  ⟨initial_broadcast _, by decide +kernel⟩

end Spadia.System.BufferLedger
