import Spadia.Peer.Answer

namespace Spadia.Peer.Negotiation

open Foundation.TracedRead Read Rtp.Packet Session.Manager TransportCC.Feedback Rtcp.FeedbackPacket
open Connection PeerConnection Answer

def acceptedOf (ext : List (UInt8 × String)) : List UInt8 :=
  (ext.filter fun e ↦ (RTPSessionManager.setExtension {} e.1 e.2).2).map Prod.fst

/-- The ids for which `SetExtension` returns `true` while the offer is answered. -/
def acceptedIds (offer : List Media) : List UInt8 := acceptedOf (offer.flatMap Media.ext)

def setAll (manager : RTPSessionManager) (ext : List (UInt8 × String)) : RTPSessionManager :=
  ext.foldl (fun manager e ↦ (manager.setExtension e.1 e.2).1) manager

theorem foldl_addMedia_sessionManager (fresh : StreamId) (offer : List Media)
    {pc : PeerConnection} {manager : RTPSessionManager} (h : pc.sessionManager = some manager) :
    (offer.foldl (addMedia fresh) pc).sessionManager =
      some (setAll manager (offer.flatMap Media.ext)) := by
  induction offer generalizing pc manager with
  | nil => exact h
  | cons media offer ih =>
    have hnext : (pc.addMedia fresh media).sessionManager = some (setAll manager media.ext) := by
      rw [addMedia, h]
      rfl
    rw [List.foldl_cons, ih hnext, List.flatMap_cons, setAll, setAll, setAll, List.foldl_append]

theorem sessionManager_createAnswer (pc : PeerConnection) (offer : List Media)
    (fresh : StreamId) : (pc.createAnswer offer fresh).sessionManager =
      some (setAll {} (offer.flatMap Media.ext)) :=
  foldl_addMedia_sessionManager fresh offer rfl

theorem mem_acceptedOf {ext : List (UInt8 × String)} {id : UInt8} :
    id ∈ acceptedOf ext ↔ (id, transportCCUri) ∈ ext := by
  simp only [acceptedOf, List.mem_map, List.mem_filter, setExtension_snd, decide_eq_true_eq]
  constructor
  · intro h
    obtain ⟨e, ⟨he, huri⟩, rfl⟩ := h
    rwa [← huri]
  · intro h
    exact ⟨_, ⟨h, rfl⟩, rfl⟩

theorem extMap_setExtension (manager : RTPSessionManager) (e : UInt8 × String) (id : UInt8) :
    (manager.setExtension e.1 e.2).1.extMap[id]? =
      if (id, transportCCUri) = e then some .transportCC else manager.extMap[id]? := by
  obtain ⟨id', extUri⟩ := e
  unfold RTPSessionManager.setExtension
  by_cases huri : extUri = transportCCUri
  · rw [if_pos huri, Std.ExtTreeMap.getElem?_insert]
    simp only [Std.LawfulEqCmp.compare_eq_iff_eq, Prod.mk.injEq, huri, and_true, eq_comm (a := id)]
  · have hne : (id, transportCCUri) ≠ (id', extUri) := by
      intro h
      exact huri (Prod.mk.inj h).2.symm
    rw [if_neg huri, if_neg hne]

theorem extMap_setAll (manager : RTPSessionManager) (ext : List (UInt8 × String)) (id : UInt8) :
    (setAll manager ext).extMap[id]? =
      if id ∈ acceptedOf ext then some .transportCC else manager.extMap[id]? := by
  simp only [mem_acceptedOf]
  induction ext generalizing manager with
  | nil => rfl
  | cons e ext ih =>
    rw [setAll, List.foldl_cons, ← setAll, ih, extMap_setExtension]
    simp only [List.mem_cons]
    split <;> simp [*]

section Lookup

variable {manager : RTPSessionManager} {ids : List UInt8}

theorem mem_extMap_toList
    (h : ∀ id, manager.extMap[id]? = if id ∈ ids then some .transportCC else none)
    {e : UInt8 × RTPExtensionType} :
    e ∈ manager.extMap.toList ↔ e.1 ∈ ids ∧ e.2 = .transportCC := by
  rw [Std.ExtTreeMap.mem_toList_iff_getElem?_eq_some (v := e.2), h]
  split <;> simp [*, eq_comm]

/-- The lookup goes through the map in the order of the ids. -/
theorem getExtensionId_eq_some_iff
    (h : ∀ id, manager.extMap[id]? = if id ∈ ids then some .transportCC else none) {least : UInt8} :
    manager.getExtensionId .transportCC = some least ↔ least ∈ ids ∧ ∀ id ∈ ids, least ≤ id := by
  have hmem := fun e ↦ mem_extMap_toList h (e := e)
  have hordered := manager.extMap.ordered_keys_toList
  unfold RTPSessionManager.getExtensionId
  cases hlist : manager.extMap.toList with
  | nil =>
    refine iff_of_false (by simp) ?_
    intro hleast
    have hnil := (hmem (least, .transportCC)).mpr ⟨hleast.1, rfl⟩
    rw [hlist] at hnil
    cases hnil
  | cons e rest =>
    rw [hlist] at hmem hordered
    obtain ⟨he, htype⟩ := (hmem e).mp (List.mem_cons_self ..)
    have hfirst : ∀ id ∈ ids, e.1 ≤ id := by
      intro id hid
      rcases List.mem_cons.mp ((hmem (id, .transportCC)).mpr ⟨hid, rfl⟩) with heq | hrest
      · rw [← heq]
        exact UInt8.le_refl id
      · exact UInt8.le_of_lt (Std.compare_eq_lt.mp ((List.pairwise_cons.mp hordered).1 _ hrest))
    rw [List.find?_cons_of_pos (by simpa using htype)]
    constructor
    · intro heq
      obtain rfl : e.1 = least := Option.some.inj heq
      exact ⟨he, hfirst⟩
    · intro hleast
      exact congrArg some (UInt8.le_antisymm (hfirst least hleast.1) (hleast.2 e.1 he))

theorem exists_getExtensionId_eq
    (h : ∀ id, manager.extMap[id]? = if id ∈ ids then some .transportCC else none) {id : UInt8}
    (hid : id ∈ ids) : ∃ least, manager.getExtensionId .transportCC = some least := by
  rw [← Option.isSome_iff_exists, RTPSessionManager.getExtensionId, Option.isSome_map,
    List.find?_isSome]
  exact ⟨(id, .transportCC), (mem_extMap_toList h).mpr ⟨hid, rfl⟩, by simp⟩

end Lookup

section Echo

variable {host : Host} {pc pc' : PeerConnection} {streams : StreamId → SSRCs}
variable {offer : List OfferedMedia} {answer : AnswerJson} {lines : List AnswerMedia}

theorem mem_acceptedIds_of_repeats (h : List.Forall₂ Repeats offer lines)
    (state : OfferedMedia → Media)
    (hstate : ∀ media, (state media).ext = media.ext.map fun e ↦ (e.value.toUInt8, e.uri))
    (id : UInt8) : id ∈ acceptedIds (offer.map state) ↔
      ∃ line ∈ lines, ∃ e ∈ line.ext, e.value.toUInt8 = id := by
  simp only [acceptedIds, mem_acceptedOf]
  induction h with
  | nil => simp
  | cons hhead _ ih =>
    simp only [List.map_cons, List.flatMap_cons, List.mem_append, ih, hstate, List.mem_cons,
      exists_eq_or_imp, hhead.ext_eq, List.mem_filter, setExtension_snd, List.mem_map]
    simp [and_assoc, and_left_comm, and_comm]

theorem mem_acceptedIds_iff_echoed
    (h : Answer.createAnswer host pc streams offer = some (pc', answer)) (id : UInt8) :
    id ∈ acceptedIds (offer.map fun media ↦ Progress.mediaState media (media.iceUfrag.getD [])
      (media.icePwd.getD [])) ↔ ∃ line ∈ answer.media, ∃ e ∈ line.ext, e.value.toUInt8 = id := by
  obtain ⟨st', hlines, -⟩ := createAnswer_eq_some h
  exact mem_acceptedIds_of_repeats (answerLines_repeats hlines rfl) _ (fun _ ↦ rfl) id

end Echo

/-- The feedback for a packet under which `num` was read. -/
def feedbackFor (p : RTPPacket) (num : UInt16) (nowUS : UInt64) (raw : UInt8) :
    RTCPRTPFeedbackPacket where
  ssrc := p.ssrc
  field := .transportCC
    (TransportCCFeedBack.insertPacket { feedbackPacketCount := raw } num.toUInt32 nowUS)

/-- A packet that has an entry under an accepted id is reported, with the number that is read
from such an entry. -/
def Reported (pc : PeerConnection) (offer : List Media) (fresh : StreamId) (p : RTPPacket)
    (nowUS : UInt64) (raw : UInt8) (m : Memory) : Prop :=
  (∃ id ∈ acceptedIds offer, id.toUInt16 ∈ p.exts) →
    ∃ manager, (pc.createAnswer offer fresh).sessionManager = some manager ∧
      ∃ id ∈ acceptedIds offer, ∃ num, (p.getTransportCCNum id).value m = some num ∧
        (manager.addPacket p nowUS raw).value m = some (feedbackFor p num nowUS raw)

theorem getTransportCCNum_isSome_iff (p : RTPPacket) (id : UInt8) (m : Memory) :
    ((p.getTransportCCNum id).value m).isSome ↔ id.toUInt16 ∈ p.exts := by
  rw [Std.ExtTreeMap.mem_iff_isSome_getElem?, RTPPacket.getTransportCCNum]
  cases p.exts[id.toUInt16]? <;> simp

theorem addPacket_value {manager : RTPSessionManager} {id : UInt8}
    (h : manager.getExtensionId .transportCC = some id) (p : RTPPacket) (nowUS : UInt64)
    (raw : UInt8) (m : Memory) : (manager.addPacket p nowUS raw).value m =
      ((p.getTransportCCNum id).value m).map fun num ↦ feedbackFor p num nowUS raw := by
  simp only [RTPSessionManager.addPacket, h]
  rfl

variable (pc : PeerConnection) (offer : List Media) (fresh : StreamId) (p : RTPPacket)
variable (nowUS : UInt64) (raw : UInt8) (m : Memory)

/-- Only the smallest of the accepted ids is ever looked up. -/
theorem reported_iff : Reported pc offer fresh p nowUS raw m ↔
    ((∃ id ∈ acceptedIds offer, id.toUInt16 ∈ p.exts) →
      ∃ least ∈ acceptedIds offer, (∀ id ∈ acceptedIds offer, least ≤ id) ∧
        least.toUInt16 ∈ p.exts) := by
  apply forall_congr'
  intro hentry
  obtain ⟨id, hid, -⟩ := hentry
  have hmap := extMap_setAll {} (offer.flatMap Media.ext)
  obtain ⟨first, hfirst⟩ := exists_getExtensionId_eq hmap hid
  obtain ⟨hmem, hle⟩ := (getExtensionId_eq_some_iff hmap).mp hfirst
  have hvalue := addPacket_value hfirst p nowUS raw m
  constructor
  · intro h
    obtain ⟨manager, hmanager, id', -, num, -, hsome⟩ := h
    obtain rfl := Option.some.inj
      ((sessionManager_createAnswer pc offer fresh).symm.trans hmanager)
    refine ⟨first, hmem, hle, (getTransportCCNum_isSome_iff p first m).mp ?_⟩
    obtain ⟨num', hnum', -⟩ := Option.map_eq_some_iff.mp (hvalue.symm.trans hsome)
    rw [hnum']
    rfl
  · intro h
    obtain ⟨least, hleast, hle', hentry⟩ := h
    obtain rfl : least = first := UInt8.le_antisymm (hle' first hmem) (hle least hleast)
    obtain ⟨num, hnum⟩ := Option.isSome_iff_exists.mp
      ((getTransportCCNum_isSome_iff p least m).mpr hentry)
    refine ⟨_, sessionManager_createAnswer pc offer fresh, least, hleast, num, hnum, ?_⟩
    rw [hvalue, hnum]
    rfl

/-- Two m-lines that use different ids. -/
def twoIds : List Media :=
  [⟨.sendonly, [(3, transportCCUri)], [], []⟩, ⟨.sendonly, [(5, transportCCUri)], [], []⟩]

/-- A packet of the second m-line, with the number `0x1234` under id `5`. -/
def underFive : Memory := ofList
  [0x90, 96, 0, 1, 0, 0, 0, 0, 0, 0, 0, 8, 0xBE, 0xDE, 0, 1, 0x51, 0x12, 0x34, 0]

theorem underFive_unreported :
    let p := (((RTPPacket.create default 1).parse 0 20).value underFive).2
    5 ∈ acceptedIds twoIds ∧ 5 ∈ p.exts ∧
      ¬ Reported default twoIds 0 p 1 0 underFive := by
  intro p
  have hentry : 5 ∈ p.exts := by decide +kernel
  refine ⟨by decide, hentry, ?_⟩
  intro h
  obtain ⟨manager, hmanager, id, -, num, -, hsome⟩ := h ⟨5, by decide, hentry⟩
  obtain rfl := Option.some.inj ((sessionManager_createAnswer default twoIds 0).symm.trans hmanager)
  have hnone : (((setAll {} (twoIds.flatMap Media.ext)).addPacket p 1 0).value
    underFive).isNone := by decide +kernel
  rw [hsome] at hnone
  cases hnone

end Spadia.Peer.Negotiation
