import Mathlib.Data.List.Count
import Mathlib.Data.List.Perm.Basic
import Spadia.Peer.StunPath
import Spadia.System.Network

namespace Spadia.System.StunExchange

open Foundation TracedRead Read LabelledRun Rtcp Stun.Packet Peer Connection PeerConnection
open Network State

def bindingRequest : List UInt8 := [0x00, 0x01]
def bindingResponse : List UInt8 := [0x01, 0x01]

def responsesSent (s : State) (a : Address) : ℕ :=
  s.sent.countP fun e ↦ e.sender = a ∧ e.bytes.take 2 = bindingResponse

def requestsDelivered (s : State) (a : Address) : ℕ :=
  s.delivered.countP fun e ↦ e.1 = a ∧ e.2.take 2 = bindingRequest

/-- No connection has sent more responses than requests were delivered to it, no response
has caused a send, and no task is going to send a response. -/
structure Answered (s : State) : Prop where
  responses_le : ∀ a, responsesSent s a ≤ requestsDelivered s a
  cause_ne : ∀ e ∈ s.sent, ∀ c, e.cause = some c → c.take 2 ≠ bindingResponse
  task_lt : ∀ t ∈ s.tasks, t.buffer < s.nextBuffer
  task_ne : ∀ t ∈ s.tasks, ((s.contents t.buffer).take t.size).take 2 ≠ bindingResponse

variable {s : State}

theorem responsesSent_udpSend (s : State) (sender dest : Address) (buffer : ℕ)
    (bytes : List UInt8) (cause : Option (List UInt8)) (a : Address) :
    responsesSent (s.udpSend sender dest buffer bytes cause) a = responsesSent s a +
      if sender = a ∧ bytes.take 2 = bindingResponse then 1 else 0 := by
  simp only [responsesSent, udpSend, List.countP_append, List.countP_singleton, decide_eq_true_eq]

theorem requestsDelivered_arrive (s : State) (d : Datagram) (a : Address) :
    requestsDelivered (s.arrive d) a = requestsDelivered s a +
      if d.dest = a ∧ d.bytes.take 2 = bindingRequest then 1 else 0 := by
  simp only [requestsDelivered, arrive, alloc, List.countP_append, List.countP_singleton,
    decide_eq_true_eq]

namespace Answered

theorem alloc (h : Answered s) (bytes : List UInt8) : Answered (s.alloc bytes) where
  responses_le := h.responses_le
  cause_ne := h.cause_ne
  task_lt t ht := Nat.lt_succ_of_lt (h.task_lt t ht)
  task_ne t ht := by
    have hne : t.buffer ≠ s.nextBuffer := (h.task_lt t ht).ne
    simp only [State.alloc, Function.update_of_ne hne]
    exact h.task_ne t ht

theorem udpSend (h : Answered s) {sender dest : Address} {buffer : ℕ} {bytes : List UInt8}
    {cause : Option (List UInt8)}
    (hbytes : bytes.take 2 = bindingResponse → responsesSent s sender < requestsDelivered s sender)
    (hcause : ∀ c, cause = some c → c.take 2 ≠ bindingResponse) :
    Answered (s.udpSend sender dest buffer bytes cause) where
  responses_le a := by
    rw [responsesSent_udpSend]
    split
    case isTrue hsend =>
      obtain ⟨rfl, hsend⟩ := hsend
      exact hbytes hsend
    case isFalse => exact h.responses_le a
  cause_ne e he c hc := by
    obtain he | he := List.mem_append.mp he
    · exact h.cause_ne e he c hc
    · obtain rfl := List.mem_singleton.mp he
      exact hcause c hc
  task_lt := h.task_lt
  task_ne := h.task_ne

theorem arrive (h : Answered s) (d : Datagram) : Answered (s.arrive d) where
  responses_le a := by
    rw [requestsDelivered_arrive]
    exact (h.responses_le a).trans (Nat.le_add_right _ _)
  cause_ne := h.cause_ne
  task_lt := (h.alloc d.bytes).task_lt
  task_ne := (h.alloc d.bytes).task_ne

end Answered

theorem feedback_ne_response (p : FeedbackPacket.RTCPRTPFeedbackPacket) :
    (ByteBuffer.bytes p.serialize.1 0 p.serialize.2).take 2 ≠ bindingResponse := by
  intro h
  have hhead := congrArg List.head? h
  have hfirst : p.serialize.1 0 = some (0x80 ||| (p.field.type &&& 0x1F)) := rfl
  rw [List.head?_take, if_neg (by decide), List.head?_eq_getElem?, ByteBuffer.bytes,
    List.getElem?_map] at hhead
  obtain ⟨i, hi, hbyte⟩ := Option.map_eq_some_iff.mp hhead
  obtain ⟨_, rfl⟩ := List.getElem?_eq_some_iff.mp hi
  rw [List.getElem_range, Nat.add_zero, hfirst, Option.getD_some] at hbyte
  have hne (f : FeedbackPacket.FeedBackField) : 0x80 ||| (f.type &&& 0x1F) ≠ 1 := by
    cases f <;> simp only [FeedbackPacket.FeedBackField.type] <;> decide
  exact hne _ hbyte

theorem media_ne_response {bytes : List UInt8} {tail : Memory}
    (h : isStun.value (received bytes tail) = false) : bytes.take 2 ≠ bindingResponse := by
  intro htake
  have hget (i : ℕ) (hi : i < 2) : bytes[i]? = bindingResponse[i]? := by
    rw [← htake, List.getElem?_take_of_lt hi]
  have h₀ : received bytes tail 0 = 1 := by
    rw [received, List.getD_eq_getElem?_getD, hget 0 (by decide)]
    rfl
  have h₁ : received bytes tail 1 = 1 := by
    rw [received, List.getD_eq_getElem?_getD, hget 1 (by decide)]
    rfl
  rw [isStun_value.mpr ⟨.inr h₀, h₁⟩] at h
  cases h

/-- Every datagram that is delivered to a connection and that `IsStun` accepts is a Binding
request, or `Parse` rejects it. -/
def OnlyRequests (s : State) : Label → Prop
  | .receive k tail _ => ∀ d, s.inFlight[k]? = some d → (s.peers d.dest).isSome →
      d.bytes ≠ [] → isStun.value (received d.bytes tail) = true →
      d.bytes.take 2 = bindingRequest ∨
        (parse d.bytes.length).value (received d.bytes tail) = none
  | _ => True

theorem Answered.perform_feedback (h : Answered s) (a : Address) {cause : List UInt8}
    (hcause : cause.take 2 ≠ bindingResponse) (dest : Address)
    (feedback : Option FeedbackPacket.RTCPRTPFeedbackPacket) :
    Answered ((feedback.map fun p ↦ Effect.send dest p.serialize).toList.foldl
      (perform a cause) s) := by
  cases feedback with
  | none => exact h
  | some p =>
    refine (h.alloc _).udpSend (fun hbytes ↦ absurd hbytes (feedback_ne_response p)) ?_
    rintro c ⟨⟩
    exact hcause

theorem Answered.perform_onRTP (h : Answered s) (a : Address) (cause : List UInt8)
    (stream : StreamId) {pkt : Rtp.Packet.RTPPacket} (hlt : pkt.data < s.nextBuffer)
    (hne : ((s.contents pkt.data).take pkt.size).take 2 ≠ bindingResponse) :
    Answered (s.perform a cause (.onRTP stream pkt)) := by
  have hnew : ∀ t ∈ (s.liveSinks stream).map fun sink ↦ Task.mk sink pkt.data pkt.size,
      t.buffer = pkt.data ∧ t.size = pkt.size := by
    intro t ht
    obtain ⟨sink, -, rfl⟩ := List.mem_map.mp ht
    exact ⟨rfl, rfl⟩
  refine ⟨h.responses_le, h.cause_ne, fun t ht ↦ ?_, fun t ht ↦ ?_⟩
  · obtain ht | ht := List.mem_append.mp ht
    · exact h.task_lt t ht
    · rw [(hnew t ht).1]
      exact hlt
  · obtain ht | ht := List.mem_append.mp ht
    · exact h.task_ne t ht
    · rw [(hnew t ht).1, (hnew t ht).2]
      exact hne

theorem contents_perform (a : Address) (cause : List UInt8) (effects : List Effect) (s : State)
    {b : ℕ} (hb : b < s.nextBuffer) :
    b < (effects.foldl (perform a cause) s).nextBuffer ∧
      (effects.foldl (perform a cause) s).contents b = s.contents b := by
  induction effects generalizing s with
  | nil => exact ⟨hb, rfl⟩
  | cons e effects ih =>
    cases e with
    | send dest out =>
      obtain ⟨hlt, hcontents⟩ := ih (perform a cause s (.send dest out)) (Nat.lt_succ_of_lt hb)
      exact ⟨hlt, hcontents.trans (Function.update_of_ne hb.ne _ _)⟩
    | onRTP stream pkt => exact ih (perform a cause s (.onRTP stream pkt)) hb

theorem Answered.read (h : Answered s) (hmac : Hmac) {d : Datagram} {tail : Memory}
    (env : Environment)
    (honly : (s.peers d.dest).isSome → d.bytes ≠ [] →
      isStun.value (received d.bytes tail) = true → d.bytes.take 2 = bindingRequest ∨
        (parse d.bytes.length).value (received d.bytes tail) = none) :
    Answered (s.read hmac d tail env) := by
  unfold State.read
  cases hpc : s.peers d.dest with
  | none => exact h
  | some pc =>
    simp only
    split
    · exact h.arrive d
    case isFalse hne =>
      have hreaction := onSocketData_reaction hmac env pc s.nextBuffer d.bytes.length d.source
        (received d.bytes tail)
      generalize (onSocketData hmac env pc s.nextBuffer d.bytes.length d.source).value
        (received d.bytes tail) = outcome at hreaction
      have hstart : Answered ((s.arrive d).settle d.dest outcome) :=
        ⟨(h.arrive d).responses_le, (h.arrive d).cause_ne, (h.arrive d).task_lt,
          (h.arrive d).task_ne⟩
      cases hreaction with
      | null => exact hstart
      | @reply hstun p hp =>
        -- The response is covered by the request that has just been delivered.
        have hrequest : d.bytes.take 2 = bindingRequest :=
          (honly (by rw [hpc]; rfl) hne hstun).resolve_right (by rw [hp]; exact Option.some_ne_none p)
        refine (hstart.alloc _).udpSend (fun _ ↦ ?_) ?_
        · have hcount := requestsDelivered_arrive s d d.dest
          rw [if_pos ⟨rfl, hrequest⟩] at hcount
          exact (Nat.lt_succ_of_le (h.responses_le d.dest)).trans_eq hcount.symm
        · rintro c ⟨⟩
          rw [hrequest]
          decide
      | rtcp => exact hstart
      | unanswered => exact hstart
      | @rtp hstun _ _ feedback packet hdata hsize =>
        have hmedia := media_ne_response hstun
        have hfeedback := hstart.perform_feedback d.dest hmedia d.source feedback
        rw [List.foldl_append]
        cases hstream : pc.remoteStream with
        | none => simpa [hstream] using hfeedback
        | some stream =>
          simp only [hstream, Option.map_some, Option.toList_some] at hfeedback ⊢
          refine hfeedback.perform_onRTP d.dest d.bytes stream ?_ ?_
          · rw [hdata]
            exact (contents_perform _ _ _ _ (Nat.lt_succ_self s.nextBuffer)).1
          · have hbytes : (s.arrive d).contents s.nextBuffer = d.bytes := Function.update_self ..
            rw [hdata, hsize, (contents_perform _ _ _ _ (Nat.lt_succ_self s.nextBuffer)).2]
            change (((s.arrive d).contents s.nextBuffer).take _).take 2 ≠ _
            rwa [hbytes, List.take_length]

theorem Answered.step {hmac : Hmac} {s s' : State} {l : Label} (h : Answered s)
    (honly : OnlyRequests s l) (hstep : State.step hmac s l = some s') : Answered s' := by
  cases step_transition hstep with
  | inject => exact ⟨h.responses_le, h.cause_ne, h.task_lt, h.task_ne⟩
  | @receive k d hd tail env =>
    have herased : Answered { s with inFlight := s.inFlight.eraseIdx k } :=
      ⟨h.responses_le, h.cause_ne, h.task_lt, h.task_ne⟩
    exact herased.read hmac env (honly d hd)
  | readNothing =>
    exact ⟨h.responses_le, h.cause_ne, (h.alloc []).task_lt, (h.alloc []).task_ne⟩
  | @runTask k t ht pc hpc =>
    have herased : Answered { s with tasks := s.tasks.eraseIdx k } :=
      ⟨h.responses_le, h.cause_ne, fun t ht ↦ h.task_lt t (List.mem_of_mem_eraseIdx ht),
        fun t ht ↦ h.task_ne t (List.mem_of_mem_eraseIdx ht)⟩
    exact herased.udpSend
      (fun hbytes ↦ absurd hbytes (h.task_ne t (List.mem_of_getElem? ht))) (by simp)
  | complete => exact ⟨h.responses_le, h.cause_ne, h.task_lt, h.task_ne⟩
  | addStream => exact ⟨h.responses_le, h.cause_ne, h.task_lt, h.task_ne⟩
  | createAnswer => exact ⟨h.responses_le, h.cause_ne, h.task_lt, h.task_ne⟩
  | destroy =>
    unfold removeSink
    split <;> exact ⟨h.responses_le, h.cause_ne, h.task_lt, h.task_ne⟩

theorem Answered.initial (h : Initial s) : Answered s :=
  ⟨fun a ↦ by simp [responsesSent, h.sent], by simp [h.sent], by simp [h.tasks], by simp [h.tasks]⟩

theorem responses_le_requests {hmac : Hmac} {s₀ s : State} {labels : List Label}
    (h₀ : Initial s₀) (honly : Along (State.step hmac) OnlyRequests s₀ labels)
    (hrun : run (State.step hmac) s₀ labels = some s) :
    (∀ a, responsesSent s a ≤ requestsDelivered s a) ∧
      ∀ e ∈ s.sent, ∀ c, e.cause = some c → c.take 2 ≠ bindingResponse := by
  have hanswered : Answered s := run_invariant (fun _ _ _ h honly hstep ↦ h.step honly hstep)
    (Answered.initial h₀) honly hrun
  exact ⟨hanswered.responses_le, hanswered.cause_ne⟩

/-- HMAC-SHA1 with the empty password over the header of the Binding response with the
transaction id 1, ..., 12. -/
def recordedMac : Hmac := fun _ _ ↦
  #v[0xDF, 0x0A, 0xC4, 0x6F, 0x28, 0x0C, 0x99, 0x4A, 0x3C, 0x51, 0x73, 0x3A, 0x22, 0x97, 0x03,
    0xF5, 0xDF, 0xBD, 0xDF, 0x4C]

def pair : State where
  peers a := if a = 1 ∨ a = 2 then some default else none

theorem initial_pair : Initial pair := ⟨rfl, rfl, rfl, fun _ ↦ rfl, rfl, rfl, rfl⟩

def bindingMessage (type : List UInt8) : List UInt8 :=
  type ++ [0, 0, 0x21, 0x12, 0xA4, 0x42, 1, 2, 3, 4, 5, 6, 7, 8, 9, 10, 11, 12]

theorem request_answered_once : Initial pair ∧
    ∃ s, run (State.step recordedMac) pair [.inject ⟨9, 1, bindingMessage bindingRequest⟩,
        .receive 0 (fun _ ↦ 0) default] = some s ∧
      (∀ a, responsesSent s a ≤ requestsDelivered s a) ∧
      ∀ e ∈ s.sent, ∀ c, e.cause = some c → c.take 2 ≠ bindingResponse := by
  have honly : Along (State.step recordedMac) OnlyRequests pair
      [.inject ⟨9, 1, bindingMessage bindingRequest⟩, .receive 0 (fun _ ↦ 0) default] := by
    refine ⟨trivial, fun s₁ h₁ ↦ ⟨?_, fun _ _ ↦ trivial⟩⟩
    obtain rfl := Option.some.inj h₁
    intro d hd _ _ _
    obtain rfl := Option.some.inj hd
    exact .inl rfl
  have hsome : (run (State.step recordedMac) pair
      [.inject ⟨9, 1, bindingMessage bindingRequest⟩,
        .receive 0 (fun _ ↦ 0) default]).isSome := by decide +kernel
  obtain ⟨s, hs⟩ := Option.isSome_iff_exists.mp hsome
  exact ⟨initial_pair, s, hs, responses_le_requests initial_pair honly hs⟩

/-- A response that seems to come from the other connection goes back and forth: after
three deliveries the first connection has sent two responses, the second one, and nobody
has seen a request. -/
theorem response_echoes : Initial pair ∧
    (run (State.step recordedMac) pair
      [.inject ⟨2, 1, bindingMessage bindingResponse⟩, .receive 0 (fun _ ↦ 0) default,
        .receive 0 (fun _ ↦ 0) default, .receive 0 (fun _ ↦ 0) default]).map
      (fun s ↦ (responsesSent s 1, responsesSent s 2, requestsDelivered s 1,
        requestsDelivered s 2)) = some (2, 1, 0, 0) :=
  ⟨initial_pair, by decide +kernel⟩

end Spadia.System.StunExchange
