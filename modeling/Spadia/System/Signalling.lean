import Spadia.Media.Fanout
import Spadia.Peer.Publishing
import Spadia.Server.Ports

namespace Spadia.System.Signalling

open Foundation LabelledRun Peer.Connection PeerConnection Peer.Answer Peer.Publishing
open Server.PcTable Server.Ports Media.Fanout

inductive Route
  | post
  | play
deriving DecidableEq, Repr

structure Request where
  route : Route
  offer : List OfferedMedia
  localUsername : List UInt8
  localPassword : List UInt8
  msid : String
  cname : String
  rawRemote : Address := 0

def candidateIp : String := "192.168.73.128"

/-- The server and the handlers of the example. `stream` is the variable that both handlers
capture. Connections are numbered as they are made, and a stream has the number of the
connection that makes it. -/
structure State where
  peers : PeerId → Option PeerConnection := fun _ ↦ none
  streams : StreamId → SSRCs := fun _ ↦ {}
  sinks : StreamId → MediaStream := fun _ ↦ {}
  stream : Option StreamId := none
  pcTable : Table := fun _ ↦ none
  ports : PortCounter
  created : ℕ := 0

namespace Request

variable (r : Request)

def connection : PeerConnection where
  localUsername := r.localUsername
  localPassword := r.localPassword
  lastRemote := r.rawRemote

/-- The offers that are answered. A player has no listener for a stream of its own. -/
def Accepted : Prop :=
  (∀ media ∈ r.offer, Complete media) ∧
    (r.route = .post ∨ ∀ media ∈ r.offer, ¬ sends media.direction)

instance : Decidable r.Accepted := inferInstanceAs (Decidable (_ ∧ _))

def Publishes : Prop :=
  r.route = .post ∧ r.Accepted ∧ ∃ media ∈ r.offer, sends media.direction

instance : Decidable r.Publishes := inferInstanceAs (Decidable (_ ∧ _))

def Watches : Prop := r.route = .play ∧ r.Accepted

instance : Decidable r.Watches := inferInstanceAs (Decidable (_ ∧ _))

end Request

namespace State

variable (s : State) (r : Request)

def host : Host where
  candidateIp := candidateIp
  port := s.ports.create.1
  msid := r.msid
  cname := r.cname
  fresh := s.created
  listener := r.route = .post

def constructed : State := { s with ports := s.ports.create.2, created := s.created + 1 }

/-- The connection has built its answer, and `AddPC` keeps it. The names that `randomID` draws are
distinct, so that no later connection takes its entry in the table, which alone keeps it alive. -/
def register (done : Progress) : State :=
  { s.constructed with
    peers := Function.update s.peers s.created (some done.pc)
    streams := done.streams
    pcTable := addPC s.pcTable s.created done.pc }

def setSinks (stream : StreamId) (sinks : MediaStream) : State :=
  { s with sinks := Function.update s.sinks stream sinks }

/-- The listener swaps a remote stream into the captured variable. -/
def post : State × Option AnswerJson :=
  match answered (s.host r) r.connection s.streams r.offer with
  | none => (s.constructed, none)
  | some (done, answer) =>
    ({ s.register done with stream := done.pc.remoteStream <|> s.stream }, some answer)

/-- `AddStream` goes through a null pointer while there is no stream. A connection that throws
is destroyed, and so is its sink. -/
def play : Option (State × Option AnswerJson) :=
  s.stream.map fun stream ↦
    let added := s.setSinks stream ((s.sinks stream).addSink s.created)
    match answered (s.host r) (r.connection.addStream stream) s.streams r.offer with
    | none =>
      (added.constructed.setSinks stream ((added.sinks stream).removeSink s.created), none)
    | some (done, answer) => (added.register done, some answer)

def serve : Option (State × Option AnswerJson) :=
  match r.route with
  | .post => some (s.post r)
  | .play => s.play r

def step : Option State := (s.serve r).map Prod.fst

end State

section History

variable (requests : List Request)

def lastPublisher : Option ℕ :=
  (requests.zipIdx.filter fun e ↦ e.1.Publishes).getLast?.map Prod.snd

/-- The players that came while `stream` was the last published one. -/
def audience (stream : StreamId) : List ℕ :=
  (List.range requests.length).filter fun i ↦
    (requests[i]?).any (fun r ↦ r.Watches) ∧ lastPublisher (requests.take i) = some stream

variable (r : Request)

theorem lastPublisher_concat : lastPublisher (requests ++ [r]) =
    if r.Publishes then some requests.length else lastPublisher requests := by
  unfold lastPublisher
  by_cases h : r.Publishes
  · simp [List.zipIdx_append, List.filter_append, h, List.getLast?_append]
  · simp [List.zipIdx_append, List.filter_append, h]

theorem audience_concat (stream : StreamId) : audience (requests ++ [r]) stream =
    audience requests stream ++
      if r.Watches ∧ lastPublisher requests = some stream then [requests.length] else [] := by
  unfold audience
  rw [List.length_append, List.length_singleton, List.range_succ, List.filter_append]
  congr 1
  · refine List.filter_congr fun i hi ↦ ?_
    have hlt := List.mem_range.mp hi
    rw [List.getElem?_append_left hlt, List.take_append_of_le_length hlt.le]
  · by_cases h : r.Watches ∧ lastPublisher requests = some stream
    · simp [h]
    · simp [h]

theorem lt_of_mem_audience {stream : StreamId} {i : ℕ} (h : i ∈ audience requests stream) :
    i < requests.length := List.mem_range.mp (List.mem_filter.mp h).1

end History

structure Serves (r : Request) (id : PeerId) (pc : PeerConnection) : Prop where
  localUsername : pc.localUsername = r.localUsername
  localPassword : pc.localPassword = r.localPassword
  remoteUsername : ∀ media, r.offer.getLast? = some media → media.iceUfrag = some pc.remoteUsername
  manager : pc.sessionManager.isSome
  remoteStream : pc.remoteStream =
    if ∃ media ∈ r.offer, sends media.direction then some id else none

section Answered

variable {s : State} {r : Request} {pc : PeerConnection} {done : Progress} {answer : AnswerJson}

theorem isSome_answered_iff (s : State) (r : Request) (pc : PeerConnection)
    (hpc : pc.remoteStream = none) :
    (answered (s.host r) pc s.streams r.offer).isSome ↔ r.Accepted := by
  rw [isSome_answered hpc, Request.Accepted]
  simp [State.host]

theorem serves_of_answered (h : answered (s.host r) pc s.streams r.offer = some (done, answer))
    (husername : pc.localUsername = r.localUsername)
    (hpassword : pc.localPassword = r.localPassword) (hpc : pc.remoteStream = none) :
    Serves r s.created done.pc := by
  obtain ⟨⟨lines, hlines, -⟩, -⟩ := answered_eq_some_iff.mp h
  have hremote := remoteStream_answerLines hlines (.inl hpc)
  rw [hpc] at hremote
  refine ⟨?_, ?_, fun media hlast ↦ remoteUsername_answerLines hlines hlast, ?_, hremote⟩
  · exact (answerLines_keeps localUsername (fun _ _ _ ↦ rfl) hlines).trans husername
  · exact (answerLines_keeps localPassword (fun _ _ _ ↦ rfl) hlines).trans hpassword
  · rw [answerLines_keeps (fun pc ↦ pc.sessionManager.isSome)
      (fun _ _ _ ↦ Option.isSome_map) hlines]
    rfl

end Answered

/-- The state after the requests, as the requests tell it. -/
structure Mirrors (requests : List Request) (s : State) : Prop where
  created : s.created = requests.length
  stream : s.stream = lastPublisher requests
  sinks : ∀ stream, (s.sinks stream).sinks = audience requests stream
  peers : ∀ i r, requests[i]? = some r → r.Accepted → ∃ pc, s.peers i = some pc ∧ Serves r i pc
  ssrcs : ∀ i r, requests[i]? = some r → r.Publishes → s.streams i = published r.offer

namespace Mirrors

variable {requests : List Request} {s : State} {r : Request}

theorem initial (ports : PortCounter) : Mirrors [] { ports } :=
  ⟨rfl, rfl, fun _ ↦ rfl, by simp, by simp⟩

theorem getElem?_concat_eq_some {r' : Request} {i : ℕ}
    (h : (requests ++ [r])[i]? = some r') :
    requests[i]? = some r' ∧ i ≠ requests.length ∨ i = requests.length ∧ r' = r := by
  rw [List.getElem?_append] at h
  split at h
  case isTrue hlt => exact .inl ⟨h, hlt.ne⟩
  case isFalse hge =>
    obtain ⟨hlt, heq⟩ := List.getElem?_eq_some_iff.mp h
    have hi : i = requests.length := by simp at hlt; omega
    subst hi
    exact .inr ⟨rfl, by simpa using heq.symm⟩

theorem concat (h : Mirrors requests s) {s' : State} (hcreated : s'.created = s.created + 1)
    (hstream : s'.stream = if r.Publishes then some s.created else s.stream)
    (hsinks : ∀ stream, (s'.sinks stream).sinks = (s.sinks stream).sinks ++
      if r.Watches ∧ s.stream = some stream then [s.created] else [])
    (hpeers : ∀ i, i ≠ s.created → s'.peers i = s.peers i)
    (hstreams : ∀ i, i ≠ s.created → s'.streams i = s.streams i)
    (hnew : r.Accepted → ∃ pc, s'.peers s.created = some pc ∧ Serves r s.created pc)
    (hpublished : r.Publishes → s'.streams s.created = published r.offer) :
    Mirrors (requests ++ [r]) s' := by
  refine ⟨?_, ?_, fun stream ↦ ?_, fun i r' hi hr' ↦ ?_, fun i r' hi hr' ↦ ?_⟩
  · rw [hcreated, h.created, List.length_append, List.length_singleton]
  · rw [hstream, h.stream, h.created, lastPublisher_concat]
  · rw [hsinks, h.sinks, h.stream, h.created, audience_concat]
  · obtain ⟨hi, hne⟩ | ⟨rfl, rfl⟩ := getElem?_concat_eq_some hi
    · rw [hpeers i (h.created ▸ hne)]
      exact h.peers i r' hi hr'
    · rw [← h.created]
      exact hnew hr'
  · obtain ⟨hi, hne⟩ | ⟨rfl, rfl⟩ := getElem?_concat_eq_some hi
    · rw [hstreams i (h.created ▸ hne)]
      exact h.ssrcs i r' hi hr'
    · rw [← h.created]
      exact hpublished hr'

theorem created_notMem (h : Mirrors requests s) (stream : StreamId) :
    s.created ∉ (s.sinks stream).sinks := by
  rw [h.sinks, h.created]
  intro hmem
  exact (lt_of_mem_audience requests hmem).false

theorem post (h : Mirrors requests s) (hr : r.route = .post) :
    Mirrors (requests ++ [r]) (s.post r).1 := by
  have hwatch (stream : StreamId) : ¬ (r.Watches ∧ s.stream = some stream) := by
    simp [Request.Watches, hr]
  unfold State.post
  cases hdone : answered (s.host r) r.connection s.streams r.offer with
  | none =>
    have hrefused : ¬ r.Accepted := by
      rw [← isSome_answered_iff s r r.connection rfl, hdone]
      simp
    refine h.concat rfl ?_ (fun stream ↦ ?_) (fun _ _ ↦ rfl) (fun _ _ ↦ rfl) ?_ ?_
    · exact (if_neg fun hpub ↦ hrefused hpub.2.1).symm
    · rw [if_neg (hwatch stream), List.append_nil]
      rfl
    · exact fun hr ↦ absurd hr hrefused
    · exact fun hpub ↦ absurd hpub.2.1 hrefused
  | some result =>
    obtain ⟨done, answer⟩ := result
    have haccepted : r.Accepted := by
      rw [← isSome_answered_iff s r r.connection rfl, hdone]
      rfl
    have hserves := serves_of_answered hdone rfl rfl rfl
    obtain ⟨⟨lines, hlines, -⟩, -⟩ := answered_eq_some_iff.mp hdone
    refine h.concat rfl ?_ (fun stream ↦ ?_) (fun i hi ↦ ?_) (fun i hi ↦ ?_) ?_ ?_
    · change (done.pc.remoteStream <|> s.stream) = _
      rw [hserves.remoteStream]
      by_cases hsends : ∃ media ∈ r.offer, sends media.direction
      · simp [hsends, Request.Publishes, hr, haccepted]
      · simp [hsends, Request.Publishes]
    · rw [if_neg (hwatch stream), List.append_nil]
      rfl
    · exact Function.update_of_ne hi _ _
    · exact streams_answerLines_other hlines rfl (Ne.symm hi)
    · exact fun _ ↦ ⟨done.pc, Function.update_self .., hserves⟩
    · exact fun hpub ↦ streams_answerLines_fresh hlines rfl hpub.2.2

theorem sinks_addSink {stream : StreamId} (h : s.created ∉ (s.sinks stream).sinks) (i : StreamId) :
    ((s.setSinks stream ((s.sinks stream).addSink s.created)).sinks i).sinks =
      (s.sinks i).sinks ++ if stream = i then [s.created] else [] := by
  by_cases hi : stream = i
  · subst hi
    simp [State.setSinks, MediaStream.addSink, h]
  · simp [State.setSinks, Function.update_of_ne (Ne.symm hi), hi]

theorem play (h : Mirrors requests s) (hr : r.route = .play) {s' : State}
    {answer : Option AnswerJson} (hs' : s.play r = some (s', answer)) :
    Mirrors (requests ++ [r]) s' := by
  obtain ⟨stream, hstream, hs'⟩ := Option.map_eq_some_iff.mp hs'
  have hpub : ¬ r.Publishes := by simp [Request.Publishes, hr]
  have hfresh := h.created_notMem stream
  cases hdone : answered (s.host r) (r.connection.addStream stream) s.streams r.offer with
  | none =>
    have hrefused : ¬ r.Accepted := by
      rw [← isSome_answered_iff s r (r.connection.addStream stream) rfl, hdone]
      simp
    rw [hdone] at hs'
    obtain ⟨rfl, rfl⟩ := Prod.mk.inj hs'
    refine h.concat rfl (if_neg hpub).symm (fun i ↦ ?_) (fun _ _ ↦ rfl) (fun _ _ ↦ rfl) ?_ ?_
    · rw [if_neg fun hwatch ↦ hrefused hwatch.1.2, List.append_nil]
      by_cases hi : i = stream
      · subst hi
        have hkept : ∀ id ∈ (s.sinks i).sinks, id ≠ s.created := by
          rintro id hid rfl
          exact hfresh hid
        simpa [State.setSinks, State.constructed, MediaStream.removeSink, MediaStream.addSink,
          hfresh] using hkept
      · simp [State.setSinks, State.constructed, Function.update_of_ne hi]
    · exact fun hr ↦ absurd hr hrefused
    · exact fun hpub' ↦ absurd hpub' hpub
  | some result =>
    obtain ⟨done, answer⟩ := result
    have haccepted : r.Accepted := by
      rw [← isSome_answered_iff s r (r.connection.addStream stream) rfl, hdone]
      rfl
    have hserves := serves_of_answered hdone rfl rfl rfl
    obtain ⟨⟨lines, hlines, -⟩, -⟩ := answered_eq_some_iff.mp hdone
    rw [hdone] at hs'
    obtain ⟨rfl, rfl⟩ := Prod.mk.inj hs'
    refine h.concat rfl (if_neg hpub).symm (fun i ↦ ?_) (fun i hi ↦ ?_) (fun i hi ↦ ?_) ?_ ?_
    · have hwatches : r.Watches := ⟨hr, haccepted⟩
      exact (sinks_addSink hfresh i).trans (by simp [hwatches, hstream])
    · exact Function.update_of_ne hi _ _
    · exact streams_answerLines_other hlines rfl (Ne.symm hi)
    · exact fun _ ↦ ⟨done.pc, Function.update_self .., hserves⟩
    · exact fun hpub' ↦ absurd hpub' hpub

theorem step {s' : State} (h : Mirrors requests s) (hs' : s.step r = some s') :
    Mirrors (requests ++ [r]) s' := by
  obtain ⟨⟨_, answer⟩, hserve, rfl⟩ := Option.map_eq_some_iff.mp hs'
  unfold State.serve at hserve
  cases hr : r.route with
  | post =>
    rw [hr] at hserve
    rw [← Option.some.inj hserve]
    exact h.post hr
  | play =>
    rw [hr] at hserve
    exact h.play hr hserve

theorem alive (h : Mirrors requests s) {stream : StreamId} {id : PeerId}
    (hid : id ∈ audience requests stream) : (s.peers id).isSome := by
  have hmem := (List.mem_filter.mp hid).2
  rw [decide_eq_true_eq, Option.any_eq_true_iff_get] at hmem
  obtain ⟨⟨hsome, hwatches⟩, -⟩ := hmem
  obtain ⟨pc, hpc, -⟩ := h.peers id _ (Option.some_get hsome).symm (of_decide_eq_true hwatches).2
  rw [hpc]
  rfl

end Mirrors

theorem lastPublisher_eq_none_iff (requests : List Request) :
    lastPublisher requests = none ↔ ∀ p ∈ requests, ¬ p.Publishes := by
  induction requests using List.reverseRecOn with
  | nil => simp [lastPublisher]
  | append_singleton requests r ih =>
    rw [lastPublisher_concat]
    by_cases h : r.Publishes
    · simp [h]
    · simp [h, ih, or_imp, forall_and]

theorem publishes_lastPublisher {requests : List Request} {i : ℕ}
    (h : lastPublisher requests = some i) : ∃ p, requests[i]? = some p ∧ p.Publishes := by
  obtain ⟨⟨p, i⟩, hlast, rfl⟩ := Option.map_eq_some_iff.mp h
  obtain ⟨hmem, hpub⟩ := List.mem_filter.mp (List.mem_of_getLast? hlast)
  exact ⟨p, List.mem_zipIdx_iff_getElem?.mp hmem, of_decide_eq_true hpub⟩

theorem step_eq_none_iff {s : State} {r : Request} :
    s.step r = none ↔ r.route = .play ∧ s.stream = none := by
  unfold State.step State.serve State.play
  cases r.route <;> simp

theorem run_eq_none_iff (ports : PortCounter) (requests : List Request) :
    run State.step { ports } requests = none ↔
      ∃ before r, before ++ [r] <+: requests ∧ r.route = .play ∧
        ∀ p ∈ before, ¬ p.Publishes := by
  induction requests using List.reverseRecOn with
  | nil => simp [run]
  | append_singleton requests r ih =>
    simp only [List.prefix_concat_iff]
    cases hrun : run State.step { ports } requests with
    | none =>
      obtain ⟨before, r', hprefix, hr'⟩ := ih.mp hrun
      refine iff_of_true ?_ ⟨before, r', .inr hprefix, hr'⟩
      rw [Option.eq_none_iff_forall_ne_some]
      intro s' hs'
      obtain ⟨s₁, hs₁, -⟩ := run_concat.mp hs'
      rw [hrun] at hs₁
      cases hs₁
    | some s =>
      have hmirrors := run_history (Mirrors.initial ports) (fun _ _ _ _ h ↦ h.step) hrun
      have hgood : ¬ ∃ before r, before ++ [r] <+: requests ∧ r.route = .play ∧
          ∀ p ∈ before, ¬ p.Publishes := by
        rw [← ih, hrun]
        simp
      have hlast : run State.step { ports } (requests ++ [r]) = s.step r := by
        simp only [run, List.foldlM_append] at hrun ⊢
        rw [hrun]
        simp
      rw [hlast, step_eq_none_iff, hmirrors.stream, lastPublisher_eq_none_iff]
      constructor
      · intro h
        exact ⟨requests, r, .inl rfl, h⟩
      · intro h
        obtain ⟨before, r', hprefix | hprefix, hr'⟩ := h
        · obtain ⟨rfl, heq⟩ := List.append_inj' hprefix rfl
          obtain rfl := List.singleton_inj.mp heq
          exact hr'
        · exact absurd ⟨before, r', hprefix, hr'⟩ hgood

/-- The handlers go through a null pointer exactly at a player that comes before every
publisher. In all other runs the viewers of a publisher's stream are the players that came
after it and before the next publisher, each once and alive. -/
theorem audience_exact (ports : PortCounter) (requests : List Request) :
    (run State.step { ports } requests = none ↔
      ∃ before r, before ++ [r] <+: requests ∧ r.route = .play ∧
        ∀ p ∈ before, ¬ p.Publishes) ∧
    ∀ s, run State.step { ports } requests = some s → s.stream = lastPublisher requests ∧
      ∀ stream, (s.sinks stream).sinks.Perm (audience requests stream) ∧
        ∀ id ∈ (s.sinks stream).sinks, (s.peers id).isSome := by
  refine ⟨run_eq_none_iff ports requests, fun s hrun ↦ ?_⟩
  have h := run_history (Mirrors.initial ports) (fun _ _ _ _ h ↦ h.step) hrun
  refine ⟨h.stream, fun stream ↦ ⟨.of_eq (h.sinks stream), fun id hid ↦ ?_⟩⟩
  rw [h.sinks] at hid
  exact h.alive hid

def publishing : List OfferedMedia :=
  [{ type := "audio", protocol := "UDP/TLS/RTP/SAVPF", payloads := "111", mid := some "0"
     direction := some .sendonly, ssrcs := [7], iceUfrag := some [97], icePwd := some [98] }]

def postOf (offer : List OfferedMedia) (name : List UInt8) : Request :=
  ⟨.post, offer, name, [112], "m", "c", 0⟩

def playOf (offer : List OfferedMedia) (name : List UInt8) : Request :=
  ⟨.play, offer, name, [112], "m", "c", 0⟩

example : audience [postOf publishing [48], playOf playing [49], postOf publishing [50],
    playOf playing [51], playOf publishing [52], playOf playing [53]] 2 = [3, 5] := by decide

end Spadia.System.Signalling
