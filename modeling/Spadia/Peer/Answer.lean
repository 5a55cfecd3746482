import Spadia.Peer.Connection

namespace Spadia.Peer.Answer

open Session.Manager Connection

structure Ext where
  value : ℕ
  uri : String
deriving DecidableEq, Repr

structure RtcpFb where
  payload : String
  type : String
  subtype : Option String := none
deriving DecidableEq, Repr

/-- An m-line of the parsed offer. `rtp` and `fmtp` hold the texts of values that are only
copied, `ssrcs` the ids. -/
structure OfferedMedia where
  type : String
  protocol : String
  payloads : String
  mid : Option String
  direction : Option Direction
  ext : List Ext := []
  rtcpFb : List RtcpFb := []
  rtp : List String := []
  fmtp : List String := []
  ssrcs : List UInt32 := []
  iceUfrag : Option (List UInt8)
  icePwd : Option (List UInt8)
deriving DecidableEq, Repr

structure SSRCAttribute where
  name : String
  id : UInt32
  value : String
deriving DecidableEq, Repr

def getSSRCs (ssrc : UInt32) (msid cname label : String) : List SSRCAttribute :=
  [⟨"cname", ssrc, cname⟩, ⟨"msid", ssrc, msid ++ " " ++ label⟩, ⟨"mslabel", ssrc, label⟩]

structure AnswerMedia where
  direction : Direction
  ext : List Ext
  type : String
  rtp : List String
  rtcpFb : List RtcpFb
  fmtp : List String
  payloads : String
  mid : Option String
  icePwd : List UInt8
  iceUfrag : List UInt8
  protocol : String
  candidate : String × UInt16
  ssrcs : List SSRCAttribute
deriving DecidableEq, Repr

structure Group where
  mids : String
  type : String
deriving DecidableEq, Repr

structure AnswerJson where
  groups : Group := ⟨"0 1", "BUNDLE"⟩
  msidSemantic : String
  media : List AnswerMedia
deriving DecidableEq, Repr

structure SSRCs where
  audioSSRC : UInt32 := 0
  videoSSRC : UInt32 := 0
deriving DecidableEq, Repr

def SSRCs.set (s : SSRCs) (type : String) (ssrc : UInt32) : SSRCs :=
  if type = "audio" then { s with audioSSRC := ssrc }
  else if type = "video" then { s with videoSSRC := ssrc }
  else s

/-- What a call of `CreateAnswer` gets from outside of its connection: two uuids, the place of
a new stream and whether a listener was set. -/
structure Host where
  candidateIp : String
  port : UInt16
  msid : String
  cname : String
  fresh : StreamId
  listener : Bool

def sends (direction : Option Direction) : Prop :=
  direction = some .sendonly ∨ direction = some .sendrecv

def receives (direction : Option Direction) : Prop :=
  direction = some .recvonly ∨ direction = some .sendrecv

instance (direction : Option Direction) : Decidable (sends direction) :=
  inferInstanceAs (Decidable (_ ∨ _))

instance (direction : Option Direction) : Decidable (receives direction) :=
  inferInstanceAs (Decidable (_ ∨ _))

def answerDirection (direction : Option Direction) : Direction :=
  if sends direction then .recvonly else .sendonly

def answerExt (manager : RTPSessionManager) : List Ext → RTPSessionManager × List Ext
  | [] => (manager, [])
  | e :: ext =>
    -- The id is an `int` here and a byte there.
    let accepted := manager.setExtension e.value.toUInt8 e.uri
    let rest := answerExt accepted.1 ext
    (rest.1, if accepted.2 then e :: rest.2 else rest.2)

def answerRtcpFb (rtcpFb : List RtcpFb) : List RtcpFb :=
  rtcpFb.filter fun fb ↦ fb.type = "transport-cc" ∨ fb.type = "nack"

def SSRCs.announced (s : SSRCs) (type : String) : Option (UInt32 × String) :=
  if s.audioSSRC ≠ 0 ∧ type = "audio" then some (s.audioSSRC, "audio0")
  else if s.videoSSRC ≠ 0 ∧ type = "video" then some (s.videoSSRC, "video0")
  else none

def msidOf (host : Host) (pc : PeerConnection) : String :=
  if pc.localStream.isSome then host.msid else "*"

structure Progress where
  pc : PeerConnection
  streams : StreamId → SSRCs

namespace Progress

variable (host : Host) (st : Progress) (media : OfferedMedia)

def localSSRCs : Option SSRCs := st.pc.localStream.map st.streams

def answerSSRCs : List SSRCAttribute :=
  if receives media.direction then
    match st.localSSRCs.bind fun s ↦ s.announced media.type with
    | some (ssrc, label) => getSSRCs ssrc (msidOf host st.pc) host.cname label
    | none => []
  else []

def answerMedia : AnswerMedia where
  direction := answerDirection media.direction
  ext := (st.pc.sessionManager.map fun manager ↦ (answerExt manager media.ext).2).getD []
  type := media.type
  rtp := media.rtp
  rtcpFb := answerRtcpFb media.rtcpFb
  fmtp := media.fmtp
  payloads := media.payloads
  mid := media.mid
  icePwd := st.pc.localPassword
  iceUfrag := st.pc.localUsername
  protocol := media.protocol
  candidate := (host.candidateIp, host.port)
  ssrcs := answerSSRCs host st media

def recordSSRC : Option (StreamId → SSRCs) :=
  if sends media.direction then
    -- Without an SSRC, the conversion throws.
    media.ssrcs.head?.map fun ssrc ↦
      match st.pc.remoteStream with
      | some stream =>
        Function.update st.streams stream ((st.streams stream).set media.type ssrc)
      | none => Function.update st.streams host.fresh (SSRCs.set {} media.type ssrc)
  else some st.streams

def mediaState (iceUfrag icePwd : List UInt8) : Media where
  -- A missing direction neither sends nor receives.
  direction := media.direction.getD .inactive
  ext := media.ext.map fun e ↦ (e.value.toUInt8, e.uri)
  iceUfrag := iceUfrag
  icePwd := icePwd

def addMedia : Option Progress := do
  let streams ← recordSSRC host st media
  -- A missing name or password throws.
  let iceUfrag ← media.iceUfrag
  let icePwd ← media.icePwd
  return { pc := st.pc.addMedia host.fresh (mediaState media iceUfrag icePwd), streams }

end Progress

def answerLines (host : Host) (st : Progress) :
    List OfferedMedia → Option (Progress × List AnswerMedia)
  | [] => some (st, [])
  | media :: offer => do
    let line := st.answerMedia host media
    let st ← st.addMedia host media
    let rest ← answerLines host st offer
    return (rest.1, line :: rest.2)

/-- `PeerConnection::CreateAnswer` with the SSRCs of all streams afterwards; `none` where it
throws. -/
def answered (host : Host) (pc : PeerConnection) (streams : StreamId → SSRCs)
    (offer : List OfferedMedia) : Option (Progress × AnswerJson) := do
  let done ← answerLines host { pc := { pc with sessionManager := some {} }, streams } offer
  -- The call of a listener that was never set throws.
  if done.1.pc.remoteStream.isSome ∧ ¬ host.listener then none
  else return (done.1, { msidSemantic := msidOf host pc, media := done.2 })

def createAnswer (host : Host) (pc : PeerConnection) (streams : StreamId → SSRCs)
    (offer : List OfferedMedia) : Option (PeerConnection × AnswerJson) :=
  (answered host pc streams offer).map fun done ↦ (done.1.pc, done.2)

def Allows : Option Direction → Direction → Prop
  | some .sendonly, d => d = .recvonly ∨ d = .inactive
  | some .recvonly, d => d = .sendonly ∨ d = .inactive
  | some .inactive, d => d = .inactive
  -- Without a direction, an m-line is `sendrecv`.
  | some .sendrecv, _ | none, _ => True

/-- An m-line of the answer repeats the offered one as far as the server takes part in it. -/
structure Repeats (media : OfferedMedia) (line : AnswerMedia) : Prop where
  type_eq : line.type = media.type
  mid_eq : line.mid = media.mid
  protocol_eq : line.protocol = media.protocol
  payloads_eq : line.payloads = media.payloads
  ext_eq : line.ext =
    media.ext.filter fun e ↦ (RTPSessionManager.setExtension {} e.value.toUInt8 e.uri).2
  rtcpFb_eq : line.rtcpFb = media.rtcpFb.filter fun fb ↦ fb.type ∈ ["transport-cc", "nack"]

def bundled (group : Group) : List String := (group.mids.toList.splitOn ' ').map String.ofList

structure Legal (offer : List OfferedMedia) (answer : AnswerJson) : Prop where
  repeats : List.Forall₂ Repeats offer answer.media
  direction : List.Forall₂ (fun media line ↦ Allows media.direction line.direction) offer
    answer.media
  ssrcs : ∀ line ∈ answer.media, line.ssrcs ≠ [] → sends (some line.direction)
  bundle : ∀ mid ∈ bundled answer.groups, ∃ line ∈ answer.media, line.mid = some mid

def SSRCs.heard (s : SSRCs) (media : OfferedMedia) : SSRCs :=
  if sends media.direction then (media.ssrcs.head?.map (s.set media.type)).getD s else s

/-- No `sendrecv` m-line finds an SSRC of its type in the local stream. Only for a connection
that plays its own remote stream, the m-lines before it count as well. -/
def Silent (playsOwn : Bool) : SSRCs → List OfferedMedia → Prop
  | _, [] => True
  | s, media :: offer => (media.direction = some .sendrecv → s.announced media.type = none) ∧
      Silent playsOwn (if playsOwn then s.heard media else s) offer

theorem answerExt_fst (manager : RTPSessionManager) (ext : List Ext) :
    (answerExt manager ext).1 = (ext.map fun e ↦ (e.value.toUInt8, e.uri)).foldl
      (fun manager e ↦ (manager.setExtension e.1 e.2).1) manager := by
  induction ext generalizing manager with
  | nil => rfl
  | cons e ext ih => exact ih _

theorem setExtension_snd (manager : RTPSessionManager) (id : UInt8) (extUri : String) :
    (manager.setExtension id extUri).2 = decide (extUri = transportCCUri) := by
  unfold RTPSessionManager.setExtension
  split <;> simp [*]

theorem answerExt_snd (manager : RTPSessionManager) (ext : List Ext) :
    (answerExt manager ext).2 =
      ext.filter fun e ↦ (RTPSessionManager.setExtension {} e.value.toUInt8 e.uri).2 := by
  induction ext generalizing manager with
  | nil => rfl
  | cons e ext ih => simp only [answerExt, List.filter_cons, setExtension_snd, ih]

theorem answerRtcpFb_eq (rtcpFb : List RtcpFb) :
    answerRtcpFb rtcpFb = rtcpFb.filter fun fb ↦ fb.type ∈ ["transport-cc", "nack"] := by
  simp [answerRtcpFb]

theorem sends_answerDirection (direction : Option Direction) :
    sends (some (answerDirection direction)) ↔ ¬ sends direction := by
  rcases direction with _ | (_ | _ | _ | _) <;> simp [answerDirection, sends]

theorem allows_answerDirection (direction : Option Direction) :
    Allows direction (answerDirection direction) ↔ direction ≠ some .inactive := by
  rcases direction with _ | (_ | _ | _ | _) <;> simp [Allows, answerDirection, sends]

namespace Progress

variable {host : Host} {st st' : Progress} {media : OfferedMedia} {stream : StreamId}

theorem answerMedia_repeats (h : st.pc.sessionManager.isSome) :
    Repeats media (st.answerMedia host media) := by
  obtain ⟨manager, hmanager⟩ := Option.isSome_iff_exists.mp h
  refine ⟨rfl, rfl, rfl, rfl, ?_, answerRtcpFb_eq _⟩
  simp only [answerMedia, hmanager]
  exact answerExt_snd manager media.ext

theorem answerSSRCs_ne_nil : answerSSRCs host st media ≠ [] ↔ receives media.direction ∧
    ∃ stream, st.pc.localStream = some stream ∧
      (st.streams stream).announced media.type ≠ none := by
  unfold answerSSRCs localSSRCs
  by_cases hreceives : receives media.direction
  · rw [if_pos hreceives]
    cases st.pc.localStream with
    | none => simp
    | some stream =>
      cases hannounced : (st.streams stream).announced media.type <;>
        simp [hannounced, getSSRCs, hreceives]
  · simp [hreceives]

theorem ssrcs_imp_sends_iff :
    ((st.answerMedia host media).ssrcs ≠ [] → sends (some (st.answerMedia host media).direction)) ↔
      ∀ stream, st.pc.localStream = some stream → media.direction = some .sendrecv →
        (st.streams stream).announced media.type = none := by
  change (answerSSRCs host st media ≠ [] → sends (some (answerDirection media.direction))) ↔ _
  rw [answerSSRCs_ne_nil, sends_answerDirection]
  constructor
  · intro h stream hstream hdirection
    by_contra hannounced
    exact h ⟨.inr hdirection, stream, hstream, hannounced⟩ (.inr hdirection)
  · intro h hssrcs hsends
    obtain ⟨hreceives, stream, hstream, hannounced⟩ := hssrcs
    apply hannounced (h stream hstream _)
    rcases hreceives with hreceives | hreceives
    · rw [hreceives] at hsends
      simp [sends] at hsends
    · exact hreceives

theorem addMedia_eq_some_iff : st.addMedia host media = some st' ↔
    ∃ streams iceUfrag icePwd, recordSSRC host st media = some streams ∧
      media.iceUfrag = some iceUfrag ∧ media.icePwd = some icePwd ∧
      st' = { pc := st.pc.addMedia host.fresh (mediaState media iceUfrag icePwd), streams } := by
  simp only [addMedia, Option.bind_eq_bind, Option.bind_eq_some_iff]
  constructor
  · intro h
    obtain ⟨streams, hstreams, iceUfrag, hufrag, icePwd, hpwd, hst⟩ := h
    exact ⟨streams, iceUfrag, icePwd, hstreams, hufrag, hpwd, (Option.some.inj hst).symm⟩
  · intro h
    obtain ⟨streams, iceUfrag, icePwd, hstreams, hufrag, hpwd, rfl⟩ := h
    exact ⟨streams, hstreams, iceUfrag, hufrag, icePwd, hpwd, rfl⟩

theorem sessionManager_addMedia (h : st.addMedia host media = some st') :
    st'.pc.sessionManager =
      st.pc.sessionManager.map fun manager ↦ (answerExt manager media.ext).1 := by
  obtain ⟨streams, iceUfrag, icePwd, -, -, -, rfl⟩ := addMedia_eq_some_iff.mp h
  simp only [answerExt_fst]
  rfl

theorem isSome_addMedia (h : st.addMedia host media = some st')
    (hmanager : st.pc.sessionManager.isSome) : st'.pc.sessionManager.isSome := by
  rw [sessionManager_addMedia h, Option.isSome_map]
  exact hmanager

theorem localStream_addMedia (h : st.addMedia host media = some st') :
    st'.pc.localStream = st.pc.localStream := by
  obtain ⟨streams, iceUfrag, icePwd, -, -, -, rfl⟩ := addMedia_eq_some_iff.mp h
  rfl

theorem remoteStream_addMedia_eq_iff (h : st.addMedia host media = some st')
    (hfresh : host.fresh ≠ stream) :
    st'.pc.remoteStream = some stream ↔ st.pc.remoteStream = some stream := by
  obtain ⟨streams, iceUfrag, icePwd, -, -, -, rfl⟩ := addMedia_eq_some_iff.mp h
  simp only [PeerConnection.addMedia]
  split
  case isTrue =>
    cases st.pc.remoteStream <;> simp [hfresh]
  case isFalse => rfl

theorem streams_addMedia (h : st.addMedia host media = some st') (hfresh : host.fresh ≠ stream) :
    st'.streams stream = if decide (st.pc.remoteStream = some stream) then
      (st.streams stream).heard media else st.streams stream := by
  obtain ⟨streams, iceUfrag, icePwd, hstreams, -, -, rfl⟩ := addMedia_eq_some_iff.mp h
  simp only [recordSSRC, SSRCs.heard] at hstreams ⊢
  by_cases hsends : sends media.direction
  · rw [if_pos hsends] at hstreams
    obtain ⟨ssrc, hssrc, rfl⟩ := Option.map_eq_some_iff.mp hstreams
    rw [if_pos hsends, hssrc]
    cases hremote : st.pc.remoteStream with
    | none => simp [Function.update_of_ne (Ne.symm hfresh)]
    | some remote =>
      by_cases heq : remote = stream
      · simp [heq]
      · simp [heq, Function.update_of_ne (Ne.symm heq)]
  · rw [if_neg hsends] at hstreams
    rw [if_neg hsends, ← Option.some.inj hstreams, ite_self]

end Progress

variable {host : Host} {st st' : Progress} {offer : List OfferedMedia} {lines : List AnswerMedia}

theorem answerLines_cons_eq_some_iff {media : OfferedMedia} :
    answerLines host st (media :: offer) = some (st', lines) ↔
      ∃ st₁ rest, st.addMedia host media = some st₁ ∧
        answerLines host st₁ offer = some (st', rest) ∧
        lines = st.answerMedia host media :: rest := by
  simp only [answerLines, Option.bind_eq_bind, Option.bind_eq_some_iff]
  constructor
  · intro h
    obtain ⟨st₁, hst₁, ⟨st₂, rest⟩, hrest, heq⟩ := h
    obtain ⟨rfl, rfl⟩ := Prod.mk.inj (Option.some.inj heq)
    exact ⟨st₁, rest, hst₁, hrest, rfl⟩
  · intro h
    obtain ⟨st₁, rest, hst₁, hrest, rfl⟩ := h
    exact ⟨st₁, hst₁, (st', rest), hrest, rfl⟩

theorem answerLines_repeats (h : answerLines host st offer = some (st', lines))
    (hmanager : st.pc.sessionManager.isSome) : List.Forall₂ Repeats offer lines := by
  induction offer generalizing st lines with
  | nil =>
    obtain ⟨-, rfl⟩ := Prod.mk.inj (Option.some.inj h)
    exact .nil
  | cons media offer ih =>
    obtain ⟨st₁, rest, hst₁, hrest, rfl⟩ := answerLines_cons_eq_some_iff.mp h
    apply List.Forall₂.cons
    · exact Progress.answerMedia_repeats hmanager
    · exact ih hrest (Progress.isSome_addMedia hst₁ hmanager)

theorem answerLines_allows_iff (h : answerLines host st offer = some (st', lines)) :
    List.Forall₂ (fun media line ↦ Allows media.direction line.direction) offer lines ↔
      ∀ media ∈ offer, media.direction ≠ some .inactive := by
  induction offer generalizing st lines with
  | nil =>
    obtain ⟨-, rfl⟩ := Prod.mk.inj (Option.some.inj h)
    simp
  | cons media offer ih =>
    obtain ⟨st₁, rest, hst₁, hrest, rfl⟩ := answerLines_cons_eq_some_iff.mp h
    rw [List.forall₂_cons, ih hrest, List.forall_mem_cons]
    exact and_congr_left' (allows_answerDirection media.direction)

theorem answerLines_ssrcs_iff (h : answerLines host st offer = some (st', lines))
    (hfresh : st.pc.localStream ≠ some host.fresh) :
    (∀ line ∈ lines, line.ssrcs ≠ [] → sends (some line.direction)) ↔
      ∀ stream, st.pc.localStream = some stream →
        Silent (decide (st.pc.remoteStream = some stream)) (st.streams stream) offer := by
  induction offer generalizing st lines with
  | nil =>
    obtain ⟨-, rfl⟩ := Prod.mk.inj (Option.some.inj h)
    simp [Silent]
  | cons media offer ih =>
    obtain ⟨st₁, rest, hst₁, hrest, rfl⟩ := answerLines_cons_eq_some_iff.mp h
    have hlocal := Progress.localStream_addMedia hst₁
    rw [List.forall_mem_cons, Progress.ssrcs_imp_sends_iff, ih hrest (hlocal ▸ hfresh), hlocal,
      ← forall_and]
    apply forall_congr'
    intro stream
    rw [← forall_and]
    apply forall_congr'
    intro hstream
    have hne : host.fresh ≠ stream := by
      intro heq
      exact hfresh (heq ▸ hstream)
    rw [Silent, ← Progress.streams_addMedia hst₁ hne]
    simp only [Progress.remoteStream_addMedia_eq_iff hst₁ hne]

theorem answerLines_pc (h : answerLines host st offer = some (st', lines)) :
    st'.pc = (offer.map fun media ↦ Progress.mediaState media (media.iceUfrag.getD [])
      (media.icePwd.getD [])).foldl (PeerConnection.addMedia host.fresh) st.pc := by
  induction offer generalizing st lines with
  | nil =>
    obtain ⟨rfl, -⟩ := Prod.mk.inj (Option.some.inj h)
    rfl
  | cons media offer ih =>
    obtain ⟨st₁, rest, hst₁, hrest, rfl⟩ := answerLines_cons_eq_some_iff.mp h
    obtain ⟨streams, iceUfrag, icePwd, -, hufrag, hpwd, rfl⟩ :=
      Progress.addMedia_eq_some_iff.mp hst₁
    rw [ih hrest, List.map_cons, List.foldl_cons, hufrag, hpwd]
    rfl

variable {pc pc' : PeerConnection} {streams : StreamId → SSRCs} {answer : AnswerJson}

theorem answered_eq_some_iff :
    answered host pc streams offer = some (st', answer) ↔
      (∃ lines, answerLines host { pc := { pc with sessionManager := some {} }, streams } offer =
        some (st', lines) ∧ answer = { msidSemantic := msidOf host pc, media := lines }) ∧
      (st'.pc.remoteStream.isSome → host.listener) := by
  unfold answered
  cases hlines : answerLines host { pc := { pc with sessionManager := some {} }, streams } offer with
  | none => simp
  | some result =>
    obtain ⟨st₁, lines⟩ := result
    simp only [Option.bind_eq_bind, Option.bind_some]
    split
    case isTrue hthrow =>
      refine iff_of_false (by simp) ?_
      intro h
      obtain ⟨⟨_, heq, -⟩, hlistener⟩ := h
      obtain ⟨rfl, -⟩ := Prod.mk.inj (Option.some.inj heq)
      exact hthrow.2 (hlistener hthrow.1)
    case isFalse hthrow =>
      constructor
      · intro h
        obtain ⟨rfl, rfl⟩ := Prod.mk.inj (Option.some.inj h)
        refine ⟨⟨lines, rfl, rfl⟩, fun hremote ↦ ?_⟩
        by_contra hlistener
        exact hthrow ⟨hremote, hlistener⟩
      · intro h
        obtain ⟨⟨lines', heq, hanswer⟩, -⟩ := h
        obtain ⟨rfl, rfl⟩ := Prod.mk.inj (Option.some.inj heq)
        exact congrArg (fun answer ↦ some (_, answer)) hanswer.symm

theorem createAnswer_eq_some (h : createAnswer host pc streams offer = some (pc', answer)) :
    ∃ st', answerLines host { pc := { pc with sessionManager := some {} }, streams } offer =
      some (st', answer.media) ∧ pc' = st'.pc ∧
      answer = { msidSemantic := msidOf host pc, media := answer.media } := by
  obtain ⟨⟨st', _⟩, hdone, heq⟩ := Option.map_eq_some_iff.mp h
  obtain ⟨rfl, rfl⟩ := Prod.mk.inj heq
  obtain ⟨⟨lines, hlines, rfl⟩, -⟩ := answered_eq_some_iff.mp hdone
  exact ⟨st', hlines, rfl, rfl⟩

theorem createAnswer_pc (h : createAnswer host pc streams offer = some (pc', answer)) :
    pc' = pc.createAnswer (offer.map fun media ↦ Progress.mediaState media
      (media.iceUfrag.getD []) (media.icePwd.getD [])) host.fresh := by
  obtain ⟨st', hlines, rfl, -⟩ := createAnswer_eq_some h
  exact answerLines_pc hlines

theorem bundle_iff (h : List.Forall₂ Repeats offer lines) (mid : String) :
    (∃ line ∈ lines, line.mid = some mid) ↔ ∃ media ∈ offer, media.mid = some mid := by
  induction h with
  | nil => simp
  | cons hhead _ ih => simp [ih, hhead.mid_eq]

theorem bundled_base : bundled ⟨"0 1", "BUNDLE"⟩ = ["0", "1"] := by decide

/-- An answer that is built is a legal reply exactly if no offered m-line is `inactive`, no
`sendrecv` m-line has something to announce, and the m-lines `0` and `1` were offered. -/
theorem createAnswer_legal_iff (hfresh : pc.localStream ≠ some host.fresh)
    (h : createAnswer host pc streams offer = some (pc', answer)) :
    Legal offer answer ↔ (∀ media ∈ offer, media.direction ≠ some .inactive) ∧
      (∀ stream, pc.localStream = some stream →
        Silent (decide (pc.remoteStream = some stream)) (streams stream) offer) ∧
      ∀ mid ∈ ["0", "1"], ∃ media ∈ offer, media.mid = some mid := by
  obtain ⟨st', hlines, -, hanswer⟩ := createAnswer_eq_some h
  have hrepeats := answerLines_repeats hlines rfl
  have hbundled : bundled answer.groups = ["0", "1"] := by
    rw [hanswer]
    exact bundled_base
  rw [← answerLines_allows_iff hlines, ← answerLines_ssrcs_iff hlines hfresh]
  constructor
  · intro hlegal
    refine ⟨hlegal.direction, hlegal.ssrcs, ?_⟩
    intro mid hmid
    rw [← bundle_iff hrepeats]
    exact hlegal.bundle mid (hbundled ▸ hmid)
  · intro hall
    obtain ⟨hdirection, hssrcs, hmids⟩ := hall
    refine ⟨hrepeats, hdirection, hssrcs, ?_⟩
    intro mid hmid
    rw [bundle_iff hrepeats]
    exact hmids mid (hbundled ▸ hmid)

def host₀ : Host := ⟨"192.168.73.128", 8080, "m", "c", 9, true⟩

def playing : List OfferedMedia :=
  [{ type := "audio", protocol := "UDP/TLS/RTP/SAVPF", payloads := "111", mid := some "0"
     direction := some .recvonly, iceUfrag := some [97], icePwd := some [98] },
   { type := "video", protocol := "UDP/TLS/RTP/SAVPF", payloads := "96", mid := some "1"
     direction := some .recvonly, iceUfrag := some [97], icePwd := some [98] }]

theorem playing_legal : ∃ pc' answer,
    createAnswer host₀ (PeerConnection.addStream default 1) (fun _ ↦ ⟨5, 6⟩) playing =
      some (pc', answer) ∧ Legal playing answer := by
  have hfresh : (PeerConnection.addStream default 1).localStream ≠ some host₀.fresh := by decide
  refine ⟨_, _, rfl, (createAnswer_legal_iff hfresh rfl).mpr ⟨by decide, ?_, by decide⟩⟩
  intro stream _
  simp [Silent, playing]

def calling : List OfferedMedia :=
  [{ type := "audio", protocol := "UDP/TLS/RTP/SAVPF", payloads := "111", mid := some "a"
     direction := some .inactive, iceUfrag := some [97], icePwd := some [98] },
   { type := "video", protocol := "UDP/TLS/RTP/SAVPF", payloads := "96", mid := some "v"
     direction := some .sendrecv, ssrcs := [7], iceUfrag := some [97], icePwd := some [98] }]

theorem calling_illegal : ∃ pc' answer first second,
    createAnswer host₀ (PeerConnection.addStream default 1) (fun _ ↦ ⟨5, 6⟩) calling =
      some (pc', answer) ∧ answer.media = [first, second] ∧ first.direction = .sendonly ∧
    second.direction = .recvonly ∧ second.ssrcs ≠ [] ∧ ¬ Legal calling answer := by
  refine ⟨_, _, _, _, rfl, rfl, rfl, rfl, by decide, ?_⟩
  intro h
  cases h.direction with
  | cons hfirst _ => cases hfirst

end Spadia.Peer.Answer
