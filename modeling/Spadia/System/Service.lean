import Spadia.System.Relay
import Spadia.System.Survival

namespace Spadia.System.Service

open Foundation TracedRead Read LabelledRun Rtcp Stun.Packet Peer.Connection Peer.Answer
open Server.PcTable Server.Ports
open Network BufferLedger Forwarding Signalling Broadcast Relay

/-- The handlers and the sockets. A handler runs between two steps of the sockets. -/
structure Process where
  handlers : Signalling.State
  sockets : Network.State := {}

inductive Event
  | request (r : Request)
  | traffic (l : Label)

def connect (t : Network.State) (id : PeerId) (s : Signalling.State) : Network.State :=
  { t with
    peers := Function.update t.peers id (s.peers id)
    sinks := fun stream ↦ (s.sinks stream).sinks }

variable (hmac : Hmac)

def Process.step (s : Process) : Event → Option Process
  | .request r =>
    -- Nobody answers after a null pointer was used.
    if s.sockets.crashed then none
    else (s.handlers.step r).map fun handlers ↦
      { handlers, sockets := connect s.sockets s.handlers.created handlers }
  | .traffic l =>
    if Traffic l then (s.sockets.step hmac l).map fun sockets ↦ { s with sockets } else none

def requestsOf (events : List Event) : List Request :=
  events.filterMap fun
    | .request r => some r
    | .traffic _ => none

/-- The media that comes to the socket `i` from the time on that `v` is there. -/
def mediaSince (i v : ℕ) (s : Process) : Event → Multiset (List UInt8)
  | .request _ => 0
  | .traffic l => if v < s.handlers.created then mediaTo i s.sockets l else 0

variable {hmac} {requests : List Request} {s s' : Process} {r : Request} {l : Label}

theorem step_cases {e : Event} (h : Process.step hmac s e = some s') :
    (∃ r handlers, e = .request r ∧ s.handlers.step r = some handlers ∧
      s' = { handlers, sockets := connect s.sockets s.handlers.created handlers }) ∨
    ∃ l sockets, e = .traffic l ∧ Traffic l ∧ s.sockets.step hmac l = some sockets ∧
      s' = { s with sockets } := by
  cases e with
  | request r =>
    simp only [Process.step] at h
    split at h
    case isTrue => cases h
    case isFalse =>
      obtain ⟨handlers, hhandlers, rfl⟩ := Option.map_eq_some_iff.mp h
      exact .inl ⟨r, handlers, rfl, hhandlers, rfl⟩
  | traffic l =>
    simp only [Process.step] at h
    split at h
    case isTrue hl =>
      obtain ⟨sockets, hsockets, rfl⟩ := Option.map_eq_some_iff.mp h
      exact .inr ⟨l, sockets, rfl, hl, hsockets, rfl⟩
    case isFalse => cases h

theorem requestsOf_request (events : List Event) (r : Request) :
    requestsOf (events ++ [.request r]) = requestsOf events ++ [r] := by
  simp [requestsOf]

theorem requestsOf_traffic (events : List Event) (l : Label) :
    requestsOf (events ++ [.traffic l]) = requestsOf events := by
  simp [requestsOf]

structure Linked (requests : List Request) (s : Process) : Prop where
  mirrors : Mirrors requests s.handlers
  backed : Backed requests s.handlers
  steady : Steady (network s.handlers) s.sockets

structure Coherent (requests : List Request) (s : Process) : Prop extends Linked requests s where
  balanced : Balanced s.sockets
  held : Held s.sockets

theorem peers_of_ne {s s' : Signalling.State} (hstep : s.step r = some s') {i : PeerId}
    (hi : i ≠ s.created) : s'.peers i = s.peers i := by
  obtain ⟨⟨s', answer⟩, hserve, rfl⟩ := Option.map_eq_some_iff.mp hstep
  cases answer with
  | none =>
    obtain ⟨-, hpeers, -⟩ := refused_of_serve hserve
    exact congrFun hpeers i
  | some answer =>
    obtain ⟨done, -, hpeers, -⟩ := answered_of_serve hserve
    simp only [hpeers, Function.update_of_ne hi]

namespace Linked

theorem initial (ports : PortCounter) : Linked [] { handlers := { ports } } where
  mirrors := Mirrors.initial ports
  backed i pc hpc := by simp at hpc
  steady := ⟨rfl, fun _ ↦ rfl⟩

theorem request (h : Linked requests s) {handlers : Signalling.State}
    (hstep : s.handlers.step r = some handlers) : Linked (requests ++ [r])
      { handlers, sockets := connect s.sockets s.handlers.created handlers } where
  mirrors := h.mirrors.step hstep
  backed := Backed.step h.mirrors h.backed hstep
  steady := by
    refine ⟨rfl, fun a ↦ ?_⟩
    change (Function.update s.sockets.peers s.handlers.created _ a).map role =
      (handlers.peers a).map role
    by_cases ha : a = s.handlers.created
    · rw [ha, Function.update_self]
    · rw [Function.update_of_ne ha, peers_of_ne hstep ha]
      exact h.steady.roles a

theorem traffic (h : Linked requests s) (hl : Traffic l) {sockets : Network.State}
    (hstep : s.sockets.step hmac l = some sockets) : Linked requests { s with sockets } :=
  ⟨h.mirrors, h.backed, h.steady.step hl hstep⟩

theorem of_run {ports : PortCounter} {events : List Event}
    (hrun : run (Process.step hmac) { handlers := { ports } } events = some s) :
    Linked (requestsOf events) s := by
  refine run_history (R := fun events s ↦ Linked (requestsOf events) s) (initial ports) ?_ hrun
  intro events e s s' h hstep
  rcases step_cases hstep with ⟨r, handlers, rfl, hhandlers, rfl⟩ |
    ⟨l, sockets, rfl, hl, hsockets, rfl⟩
  · rw [requestsOf_request]
    exact h.request hhandlers
  · rw [requestsOf_traffic]
    exact h.traffic hl hsockets

theorem peer (h : Linked requests s) {a : Address} {pc : PeerConnection}
    (hpc : s.sockets.peers a = some pc) : ∃ r, requests[a]? = some r ∧ r.Accepted ∧
      pc.sessionManager.isSome ∧ (pc.remoteStream.isSome ↔ r.Publishes) := by
  have hroles := h.steady.roles a
  rw [hpc, Option.map_some] at hroles
  obtain ⟨pc', hpc', hrole⟩ := Option.map_eq_some_iff.mp hroles.symm
  obtain ⟨r, hr, haccepted⟩ := h.backed a pc' hpc'
  obtain ⟨pc₁, hpc₁, hserves⟩ := h.mirrors.peers a r hr haccepted
  obtain rfl : pc' = pc₁ := Option.some.inj (hpc'.symm.trans hpc₁)
  obtain ⟨hmanager, hstream⟩ := Prod.mk.inj hrole
  refine ⟨r, hr, haccepted, ?_, ?_⟩
  · rw [← hmanager]
    exact hserves.manager
  · rw [← hstream, hserves.remoteStream]
    by_cases hsends : ∃ media ∈ r.offer, sends media.direction
    · -- A player whose offer sends is not accepted.
      have hpost : r.route = .post := by
        refine haccepted.2.resolve_right fun hsilent ↦ ?_
        obtain ⟨media, hmedia, hsend⟩ := hsends
        exact hsilent media hmedia hsend
      rw [if_pos hsends]
      exact iff_of_true rfl ⟨hpost, haccepted, hsends⟩
    · rw [if_neg hsends]
      exact iff_of_false (by simp) fun hpub ↦ hsends hpub.2.2

theorem exists_peer (h : Linked requests s) {a : Address} (hr : requests[a]? = some r)
    (haccepted : r.Accepted) : ∃ pc, s.sockets.peers a = some pc := by
  obtain ⟨pc, hpc, -⟩ := h.mirrors.peers a r hr haccepted
  have hsome : (s.sockets.peers a).isSome = (s.handlers.peers a).isSome := h.steady.isSome a
  rw [hpc] at hsome
  exact Option.isSome_iff_exists.mp hsome

end Linked

namespace Coherent

theorem initial (ports : PortCounter) : Coherent [] { handlers := { ports } } where
  toLinked := Linked.initial ports
  balanced := Balanced.initial ⟨rfl, rfl, rfl, fun _ ↦ rfl, rfl, rfl, rfl⟩
  held t ht := by simp at ht

theorem created_notMem_tasks (h : Coherent requests s) {t : Task} (ht : t ∈ s.sockets.tasks) :
    t.sink ≠ s.handlers.created := by
  have hsome := h.held t ht
  rw [h.steady.isSome] at hsome
  obtain ⟨pc, hpc⟩ := Option.isSome_iff_exists.mp hsome
  obtain ⟨r, hr, -⟩ := h.backed t.sink pc hpc
  have hlt := (List.getElem?_eq_some_iff.mp hr).1
  rw [h.mirrors.created]
  exact hlt.ne

theorem request (h : Coherent requests s) {handlers : Signalling.State}
    (hstep : s.handlers.step r = some handlers) : Coherent (requests ++ [r])
      { handlers, sockets := connect s.sockets s.handlers.created handlers } where
  toLinked := h.toLinked.request hstep
  balanced := ⟨h.balanced.ticket_le, h.balanced.ticket_fresh, h.balanced.no_stale⟩
  held t ht := by
    change (Function.update s.sockets.peers s.handlers.created _ t.sink).isSome
    rw [Function.update_of_ne (h.created_notMem_tasks ht)]
    exact h.held t ht

theorem traffic (h : Coherent requests s) (hone : ∀ i, (audience requests i).length ≤ 1)
    (hl : Traffic l) {sockets : Network.State} (hstep : s.sockets.step hmac l = some sockets) :
    Coherent requests { s with sockets } where
  toLinked := h.toLinked.traffic hl hstep
  balanced := h.balanced.step (atMostOneSink_of_audience h.mirrors hone h.steady l) hstep
  held := h.held.step hstep

end Coherent

section Account

variable (hmac) in
structure Accounted (s₀ : Process) (events : List Event) (s : Process) : Prop where
  coherent : Coherent (requestsOf events) s
  relayed : ∀ i, ∀ v ∈ audience (requestsOf events) i,
    ledger s.sockets v = total (Process.step hmac) (mediaSince i v) s₀ events
  silent : ∀ v, (∀ i, v ∉ audience (requestsOf events) i) → ledger s.sockets v = 0
  unjoined : ∀ i v, (requestsOf events).length ≤ v →
    total (Process.step hmac) (mediaSince i v) s₀ events = 0

variable {s₀ : Process} {events : List Event}

theorem Accounted.request (h : Accounted hmac s₀ events s)
    (hrun : run (Process.step hmac) s₀ events = some s) {handlers : Signalling.State}
    (hstep : s.handlers.step r = some handlers) : Accounted hmac s₀ (events ++ [.request r])
      { handlers, sockets := connect s.sockets s.handlers.created handlers } := by
  have htotal (i v : ℕ) : total (Process.step hmac) (mediaSince i v) s₀
      (events ++ [.request r]) = total (Process.step hmac) (mediaSince i v) s₀ events :=
    (total_concat hrun _).trans (add_zero _)
  have hledger (v : Address) : ledger (connect s.sockets s.handlers.created handlers) v =
      ledger s.sockets v := rfl
  refine ⟨?_, fun i v hv ↦ ?_, fun v hv ↦ ?_, fun i v hv ↦ ?_⟩
  · rw [requestsOf_request]
    exact h.coherent.request hstep
  · rw [htotal, hledger]
    rw [requestsOf_request, audience_concat] at hv
    rcases List.mem_append.mp hv with hv | hv
    · exact h.relayed i v hv
    · -- A player that has just come has nothing yet, and nothing counts for it.
      obtain rfl : v = (requestsOf events).length := by
        split at hv
        case isTrue => exact List.mem_singleton.mp hv
        case isFalse => cases hv
      rw [h.unjoined i _ (le_refl _)]
      exact h.silent _ fun j hj ↦ (lt_of_mem_audience _ hj).false
  · rw [hledger]
    refine h.silent v fun i hi ↦ hv i ?_
    rw [requestsOf_request, audience_concat]
    exact List.mem_append_left _ hi
  · rw [htotal]
    rw [requestsOf_request, List.length_append] at hv
    exact h.unjoined i v (by omega)

theorem Accounted.traffic (h : Accounted hmac s₀ events s)
    (hrun : run (Process.step hmac) s₀ events = some s)
    (hone : ∀ i, (audience (requestsOf events) i).length ≤ 1) (hl : Traffic l)
    {sockets : Network.State} (hstep : s.sockets.step hmac l = some sockets) :
    Accounted hmac s₀ (events ++ [.traffic l]) { s with sockets } := by
  obtain ⟨⟨hmirrors, hbacked, hsteady⟩, hbalanced, -⟩ := h.coherent
  have hledger (v : Address) : ledger sockets v = ledger s.sockets v + handed v s.sockets l :=
    ledger_step hbalanced (atMostOneSink_of_audience hmirrors hone hsteady l) hstep v
  have htotal (i v : ℕ) : total (Process.step hmac) (mediaSince i v) s₀
      (events ++ [.traffic l]) = total (Process.step hmac) (mediaSince i v) s₀ events +
        mediaSince i v s (.traffic l) := total_concat hrun _
  refine ⟨?_, fun i v hv ↦ ?_, fun v hv ↦ ?_, fun i v hv ↦ ?_⟩
  · rw [requestsOf_traffic]
    exact h.coherent.traffic hone hl hstep
  · rw [requestsOf_traffic] at hv
    have hjoined : v < s.handlers.created := by
      rw [hmirrors.created]
      exact lt_of_mem_audience _ hv
    rw [hledger, htotal, h.relayed i v hv, handed_of_audience hmirrors hbacked hv hsteady,
      mediaSince, if_pos hjoined]
  · rw [requestsOf_traffic] at hv
    rw [hledger, h.silent v hv, handed_of_nobody hmirrors hbacked hv hsteady, add_zero]
  · rw [requestsOf_traffic] at hv
    have hout : ¬ v < s.handlers.created := by
      rw [hmirrors.created]
      omega
    rw [htotal, h.unjoined i v hv, mediaSince, if_neg hout, add_zero]

end Account

def lateJoin : List Event :=
  [.request (postOf publishing [48]),
    .traffic (.inject mediaToFirst), .traffic (.receive 0 (fun _ ↦ 0) default),
    .request (playOf playing [49]),
    .traffic (.inject mediaToFirst), .traffic (.receive 0 (fun _ ↦ 0) default)]

example : total (Process.step default) (mediaSince 0 1) { handlers := onAir } lateJoin =
    {mediaToFirst.bytes} := by
  decide +kernel

section Outage

variable (hmac) in
def Fatal (s : Process) : Event → Prop
  | .request r => s.handlers.step r = none
  | .traffic l => ∃ s', Process.step hmac s (.traffic l) = some s' ∧ s'.sockets.crashed = true

/-- What the requests so far leave open to do harm: a player before every publisher, something
that looks like STUN and cannot be parsed, and media for a connection that publishes nothing. -/
def Provoked (requests : List Request) (s : Process) : Event → Prop
  | .request r => r.route = .play ∧ ∀ p ∈ requests, ¬ p.Publishes
  | .traffic (.receive k tail _) => ∃ d r, s.sockets.inFlight[k]? = some d ∧ d.bytes ≠ [] ∧
      requests[d.dest]? = some r ∧ r.Accepted ∧
      (isStun.value (received d.bytes tail) = true ∧
          (Stun.Packet.parse d.bytes.length).value (received d.bytes tail) = none ∨
        isStun.value (received d.bytes tail) = false ∧
          (Compound.isRTCP d.bytes.length).value (received d.bytes tail) = false ∧
          ¬ r.Publishes)
  | .traffic _ => False

theorem not_harmless_iff {env : Environment} {pc : PeerConnection} {size : ℕ} {m : Memory}
    (hmanager : pc.sessionManager.isSome) (hstream : pc.remoteStream.isSome ↔ r.Publishes) :
    ¬ Survival.Harmless env pc size m ↔
      isStun.value m = true ∧ (Stun.Packet.parse size).value m = none ∨
        isStun.value m = false ∧ (Compound.isRTCP size).value m = false ∧ ¬ r.Publishes := by
  rw [← hstream]
  constructor
  · intro hharm
    by_contra hno
    rw [not_or] at hno
    refine hharm ⟨fun hstun ↦ ?_, fun _ _ ↦ .inl hmanager, fun hstun hrtcp ↦ ⟨hmanager, ?_⟩⟩
    · rw [Option.isSome_iff_ne_none]
      exact fun hparse ↦ hno.1 ⟨hstun, hparse⟩
    · by_contra hnone
      exact hno.2 ⟨hstun, hrtcp, hnone⟩
  · rintro (⟨hstun, hparse⟩ | ⟨hstun, hrtcp, hnone⟩) hsafe
    · have hsome := hsafe.stun hstun
      rw [hparse] at hsome
      cases hsome
    · exact hnone (hsafe.rtp hstun hrtcp).2

theorem fatal_traffic (hcrashed : s.sockets.crashed = false) :
    Fatal hmac s (.traffic l) ↔ ¬ Survival.Safe s.sockets l := by
  constructor
  · rintro ⟨s', hstep, hcrash⟩ hsafe
    rcases step_cases hstep with ⟨r, -, hr, -⟩ | ⟨l', sockets, hl', -, hsockets, rfl⟩
    · cases hr
    · obtain rfl := Event.traffic.inj hl'
      rw [(Survival.crashed_step hcrashed hsockets).mpr hsafe] at hcrash
      cases hcrash
  · intro hunsafe
    obtain ⟨sockets, hsockets⟩ : ∃ sockets, s.sockets.step hmac l = some sockets := by
      rw [← Option.ne_none_iff_exists']
      exact fun hstuck ↦ hunsafe (Survival.safe_of_stuck hstuck)
    have hl : Traffic l := by
      cases l with
      | receive => trivial
      | _ => exact absurd trivial hunsafe
    refine ⟨{ s with sockets }, ?_, ?_⟩
    · simp only [Process.step, if_pos hl, hsockets, Option.map_some]
    · by_contra hcrash
      have hsafe := Survival.crashed_step hcrashed hsockets
      exact hunsafe (hsafe.mp (Bool.eq_false_of_not_eq_true hcrash))

theorem Linked.fatal_receive (h : Linked requests s) (hcrashed : s.sockets.crashed = false)
    (k : ℕ) (tail : Memory) (env : Environment) :
    Fatal hmac s (.traffic (.receive k tail env)) ↔
      Provoked requests s (.traffic (.receive k tail env)) := by
  rw [fatal_traffic hcrashed]
  simp only [Survival.Safe, not_forall]
  constructor
  · rintro ⟨d, pc, -, hd, hpc, hbytes, hharm⟩
    obtain ⟨r, hr, haccepted, hmanager, hstream⟩ := h.peer hpc
    exact ⟨d, r, hd, hbytes, hr, haccepted, (not_harmless_iff hmanager hstream).mp hharm⟩
  · rintro ⟨d, r, hd, hbytes, hr, haccepted, hharm⟩
    obtain ⟨pc, hpc⟩ := h.exists_peer hr haccepted
    obtain ⟨r', hr', -, hmanager, hstream⟩ := h.peer hpc
    obtain rfl : r = r' := Option.some.inj (hr.symm.trans hr')
    exact ⟨d, pc, hcrashed, hd, hpc, hbytes, (not_harmless_iff hmanager hstream).mpr hharm⟩

/-- However requests and traffic have come in turn, the next event takes the process through a
null pointer exactly if the requests so far leave it open. No report, no check that can be
parsed, no task and no late publisher ever does. -/
theorem fatal_iff_provoked {ports : PortCounter} {events : List Event}
    (hrun : run (Process.step hmac) { handlers := { ports } } events = some s)
    (hcrashed : s.sockets.crashed = false) (e : Event) :
    Fatal hmac s e ↔ Provoked (requestsOf events) s e := by
  have h := Linked.of_run hrun
  cases e with
  | request r =>
    change s.handlers.step r = none ↔ r.route = .play ∧ _
    rw [step_eq_none_iff, h.mirrors.stream, lastPublisher_eq_none_iff]
  | traffic l =>
    cases l with
    | receive k tail env => exact h.fatal_receive hcrashed k tail env
    | _ =>
      rw [fatal_traffic hcrashed]
      exact iff_of_false (not_not_intro trivial) id

def strayMedia : Datagram := { mediaToFirst with dest := 1 }

theorem strayMedia_fatal : ∃ s,
    run (Process.step default) { handlers := onAir }
      (lateJoin ++ [.traffic (.inject strayMedia)]) = some s ∧
      s.sockets.crashed = false ∧ Fatal default s (.traffic (.receive 0 (fun _ ↦ 0) default)) := by
  have hsome : (run (Process.step default) { handlers := onAir }
      (lateJoin ++ [.traffic (.inject strayMedia)])).map
        (fun s ↦ (s.sockets.crashed, s.sockets.inFlight)) = some (false, [strayMedia]) := by
    decide +kernel
  obtain ⟨s, hs, hboth⟩ := Option.map_eq_some_iff.mp hsome
  obtain ⟨hcrashed, hflight⟩ := Prod.mk.inj hboth
  refine ⟨s, hs, hcrashed, (fatal_iff_provoked hs hcrashed _).mpr ?_⟩
  refine ⟨strayMedia, playOf playing [49], ?_, by decide, rfl, by decide, .inr ?_⟩
  · rw [hflight]
    rfl
  · decide

end Outage

end Spadia.System.Service
