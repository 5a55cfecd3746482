import Mathlib.Data.List.Forall2
import Spadia.Peer.Answer

namespace Spadia.Peer.Publishing

open Connection Answer

/-- An m-line that the loop of `CreateAnswer` gets through without an exception. -/
def Complete (media : OfferedMedia) : Prop :=
  (sends media.direction → media.ssrcs ≠ []) ∧ media.iceUfrag.isSome ∧ media.icePwd.isSome

instance (media : OfferedMedia) : Decidable (Complete media) :=
  inferInstanceAs (Decidable (_ ∧ _))

variable {host : Host} {st st' : Progress} {media : OfferedMedia} {offer : List OfferedMedia}
variable {lines : List AnswerMedia} {pc : PeerConnection} {streams : StreamId → SSRCs}

theorem isSome_recordSSRC (host : Host) (st : Progress) (media : OfferedMedia) :
    (Progress.recordSSRC host st media).isSome ↔ (sends media.direction → media.ssrcs ≠ []) := by
  unfold Progress.recordSSRC
  by_cases hsends : sends media.direction
  · cases hssrcs : media.ssrcs <;> simp [hsends]
  · simp [hsends]

theorem isSome_addMedia (host : Host) (st : Progress) (media : OfferedMedia) :
    (st.addMedia host media).isSome ↔ Complete media := by
  rw [Complete, ← isSome_recordSSRC host st, Progress.addMedia]
  cases Progress.recordSSRC host st media <;> cases media.iceUfrag <;> cases media.icePwd <;> simp

theorem isSome_answerLines (host : Host) (st : Progress) (offer : List OfferedMedia) :
    (answerLines host st offer).isSome ↔ ∀ media ∈ offer, Complete media := by
  induction offer generalizing st with
  | nil => simp [answerLines]
  | cons media offer ih =>
    rw [List.forall_mem_cons, ← isSome_addMedia host st, answerLines]
    cases st.addMedia host media with
    | none => simp
    | some st₁ =>
      rw [← ih st₁]
      simp only [Option.bind_eq_bind, Option.bind_some, Option.isSome_some, true_and]
      cases answerLines host st₁ offer with
      | none => rfl
      | some rest => rfl

theorem sends_mediaState (media : OfferedMedia) (iceUfrag icePwd : List UInt8) :
    ((Progress.mediaState media iceUfrag icePwd).direction = .sendonly ∨
      (Progress.mediaState media iceUfrag icePwd).direction = .sendrecv) ↔
    sends media.direction := by
  unfold Progress.mediaState sends
  cases media.direction <;> simp

theorem remoteStream_addMedia (h : st.addMedia host media = some st') :
    st'.pc.remoteStream = if sends media.direction then
      some (st.pc.remoteStream.getD host.fresh) else st.pc.remoteStream := by
  obtain ⟨streams, iceUfrag, icePwd, -, -, -, rfl⟩ := Progress.addMedia_eq_some_iff.mp h
  simp only [PeerConnection.addMedia, sends_mediaState]

/-- A connection that had no remote stream has the new one as soon as an m-line sends. -/
theorem remoteStream_answerLines (h : answerLines host st offer = some (st', lines))
    (hst : st.pc.remoteStream = none ∨ st.pc.remoteStream = some host.fresh) :
    st'.pc.remoteStream = if ∃ media ∈ offer, sends media.direction then some host.fresh
      else st.pc.remoteStream := by
  induction offer generalizing st lines with
  | nil =>
    obtain ⟨rfl, -⟩ := Prod.mk.inj (Option.some.inj h)
    simp
  | cons media offer ih =>
    obtain ⟨st₁, rest, hst₁, hrest, rfl⟩ := answerLines_cons_eq_some_iff.mp h
    have hremote := remoteStream_addMedia hst₁
    have hfresh : st.pc.remoteStream.getD host.fresh = host.fresh := by
      rcases hst with hst | hst <;> simp [hst]
    rw [hfresh] at hremote
    rw [ih hrest, hremote]
    · by_cases hsends : sends media.direction
      · simp [hsends]
      · simp [hsends]
    · rw [hremote]
      split
      · exact .inr rfl
      · exact hst

/-- A new connection answers exactly the complete offers, and without a listener only those
that send nothing. -/
theorem isSome_answered (hpc : pc.remoteStream = none) :
    (answered host pc streams offer).isSome ↔ (∀ media ∈ offer, Complete media) ∧
      (host.listener ∨ ∀ media ∈ offer, ¬ sends media.direction) := by
  rw [← isSome_answerLines host { pc := { pc with sessionManager := some {} }, streams }, answered]
  cases hlines : answerLines host { pc := { pc with sessionManager := some {} }, streams } offer with
  | none => simp
  | some result =>
    obtain ⟨st', lines⟩ := result
    have hremote := remoteStream_answerLines hlines (.inl hpc)
    simp only [hpc] at hremote
    simp only [Option.bind_eq_bind, Option.bind_some, Option.isSome_some, true_and, hremote]
    by_cases hsends : ∃ media ∈ offer, sends media.direction
    · have hnot : ¬ ∀ media ∈ offer, ¬ sends media.direction := by simpa using hsends
      cases hlistener : host.listener <;> simp [hsends, hnot]
    · have hall : ∀ media ∈ offer, ¬ sends media.direction := by simpa using hsends
      exact iff_of_true (by simp [hsends]) (.inr hall)

/-- The SSRC that an offer gives for a type: the last m-line that sends decides. -/
def publishedSSRC (offer : List OfferedMedia) (type : String) : UInt32 :=
  ((offer.filter fun media ↦ sends media.direction ∧ media.type = type).getLast?.bind
    fun media ↦ media.ssrcs.head?).getD 0

def published (offer : List OfferedMedia) : SSRCs where
  audioSSRC := publishedSSRC offer "audio"
  videoSSRC := publishedSSRC offer "video"

theorem publishedSSRC_concat (offer : List OfferedMedia) (media : OfferedMedia) (type : String) :
    publishedSSRC (offer ++ [media]) type =
      if sends media.direction ∧ media.type = type then media.ssrcs.headD 0
      else publishedSSRC offer type := by
  unfold publishedSSRC
  by_cases h : sends media.direction ∧ media.type = type
  · simp [List.filter_append, h, List.getLast?_append]
  · simp [List.filter_append, h]

theorem published_concat (offer : List OfferedMedia) {media : OfferedMedia}
    (hcomplete : Complete media) :
    published (offer ++ [media]) = (published offer).heard media := by
  unfold published SSRCs.heard
  rw [publishedSSRC_concat, publishedSSRC_concat]
  by_cases hsends : sends media.direction
  · obtain ⟨ssrc, rest, hssrcs⟩ := List.exists_cons_of_ne_nil (hcomplete.1 hsends)
    simp only [hsends, hssrcs, true_and, if_true, List.head?_cons, List.headD_cons,
      Option.map_some, Option.getD_some, SSRCs.set]
    by_cases haudio : media.type = "audio"
    · simp [haudio]
    · by_cases hvideo : media.type = "video" <;> simp [haudio, hvideo]
  · simp [hsends]

theorem streams_addMedia_fresh (h : st.addMedia host media = some st')
    (hst : st.pc.remoteStream = none ∨ st.pc.remoteStream = some host.fresh) :
    st'.streams host.fresh = if sends media.direction then
      (if st.pc.remoteStream = none then SSRCs.heard {} media
        else (st.streams host.fresh).heard media)
      else st.streams host.fresh := by
  obtain ⟨streams, iceUfrag, icePwd, hstreams, -, -, rfl⟩ := Progress.addMedia_eq_some_iff.mp h
  simp only [Progress.recordSSRC, SSRCs.heard] at hstreams ⊢
  by_cases hsends : sends media.direction
  · rw [if_pos hsends] at hstreams
    obtain ⟨ssrc, hssrc, rfl⟩ := Option.map_eq_some_iff.mp hstreams
    rcases hst with hst | hst <;> simp [hsends, hst, hssrc]
  · rw [if_neg hsends] at hstreams
    rw [if_neg hsends, ← Option.some.inj hstreams]

theorem answerLines_concat_eq_some (h : answerLines host st (offer ++ [media]) = some (st', lines)) :
    ∃ st₁ front, answerLines host st offer = some (st₁, front) ∧
      st₁.addMedia host media = some st' ∧ lines = front ++ [st₁.answerMedia host media] := by
  induction offer generalizing st lines with
  | nil =>
    obtain ⟨st₁, rest, hst₁, hrest, rfl⟩ := answerLines_cons_eq_some_iff.mp h
    obtain ⟨rfl, rfl⟩ := Prod.mk.inj (Option.some.inj hrest)
    exact ⟨st, [], rfl, hst₁, rfl⟩
  | cons first offer ih =>
    obtain ⟨st₁, rest, hst₁, hrest, rfl⟩ := answerLines_cons_eq_some_iff.mp h
    obtain ⟨st₂, front, hfront, hst₂, rfl⟩ := ih hrest
    exact ⟨st₂, _, answerLines_cons_eq_some_iff.mpr ⟨st₁, front, hst₁, hfront, rfl⟩, hst₂, rfl⟩

theorem complete_of_addMedia (h : st.addMedia host media = some st') : Complete media :=
  (isSome_addMedia host st media).mp (by rw [h]; rfl)

theorem publishedSSRC_of_silent (hsilent : ¬ ∃ media ∈ offer, sends media.direction)
    (type : String) : publishedSSRC offer type = 0 := by
  have hnone : (offer.filter fun media ↦ sends media.direction ∧ media.type = type) = [] := by
    rw [List.filter_eq_nil_iff]
    intro media hmedia h
    exact hsilent ⟨media, hmedia, (of_decide_eq_true h).1⟩
  simp only [publishedSSRC, hnone]
  rfl

theorem published_of_silent (hsilent : ¬ ∃ media ∈ offer, sends media.direction) :
    published offer = {} := by
  simp only [published, publishedSSRC_of_silent hsilent]

/-- The stream of a new publisher has the SSRCs of its offer. -/
theorem streams_answerLines_fresh (h : answerLines host st offer = some (st', lines))
    (hst : st.pc.remoteStream = none) (hsends : ∃ media ∈ offer, sends media.direction) :
    st'.streams host.fresh = published offer := by
  induction offer using List.reverseRecOn generalizing st' lines with
  | nil => simp at hsends
  | append_singleton offer media ih =>
    obtain ⟨st₁, front, hfront, hst₁, rfl⟩ := answerLines_concat_eq_some h
    have hremote := remoteStream_answerLines hfront (.inl hst)
    have hstreams := streams_addMedia_fresh hst₁ (by rw [hremote, hst]; split <;> simp)
    rw [hstreams, published_concat offer (complete_of_addMedia hst₁), hremote, hst]
    by_cases hbefore : ∃ media ∈ offer, sends media.direction
    · have hfresh : ¬ (some host.fresh = none) := by simp
      rw [if_pos hbefore, if_neg hfresh, ih hfront hbefore]
      by_cases hlast : sends media.direction
      · rw [if_pos hlast]
      · rw [if_neg hlast, SSRCs.heard, if_neg hlast]
    · have hlast : sends media.direction := by
        obtain ⟨media', hmem, hmedia'⟩ := hsends
        rcases List.mem_append.mp hmem with hmem | hmem
        · exact absurd ⟨media', hmem, hmedia'⟩ hbefore
        · rwa [← List.mem_singleton.mp hmem]
      rw [if_pos hlast, if_neg hbefore, if_pos rfl, published_of_silent hbefore]

theorem streams_answerLines_other (h : answerLines host st offer = some (st', lines))
    (hst : st.pc.remoteStream = none) {stream : StreamId} (hstream : host.fresh ≠ stream) :
    st'.streams stream = st.streams stream := by
  induction offer using List.reverseRecOn generalizing st' lines with
  | nil =>
    obtain ⟨rfl, -⟩ := Prod.mk.inj (Option.some.inj h)
    rfl
  | append_singleton offer media ih =>
    obtain ⟨st₁, front, hfront, hst₁, rfl⟩ := answerLines_concat_eq_some h
    have hremote := remoteStream_answerLines hfront (.inl hst)
    have hne : st₁.pc.remoteStream ≠ some stream := by
      rw [hremote, hst]
      split <;> simp [hstream]
    rw [Progress.streams_addMedia hst₁ hstream, if_neg (by simpa using hne), ih hfront]

/-- What the answer to an m-line says of a stream that has the given SSRCs. -/
def announcement (host : Host) (ssrcs : SSRCs) (media : OfferedMedia) : List SSRCAttribute :=
  if receives media.direction then
    (ssrcs.announced media.type).elim [] fun e ↦ getSSRCs e.1 host.msid host.cname e.2
  else []

theorem answerSSRCs_eq {stream : StreamId} (hlocal : st.pc.localStream = some stream) :
    Progress.answerSSRCs host st media = announcement host (st.streams stream) media := by
  unfold Progress.answerSSRCs announcement Progress.localSSRCs msidOf
  rw [hlocal, Option.map_some, Option.bind_some]
  cases (st.streams stream).announced media.type <;> rfl

theorem answerLines_keeps {α : Type*} (field : PeerConnection → α)
    (hmedia : ∀ fresh pc media, field (PeerConnection.addMedia fresh pc media) = field pc)
    (h : answerLines host st offer = some (st', lines)) : field st'.pc = field st.pc := by
  induction offer using List.reverseRecOn generalizing st' lines with
  | nil =>
    obtain ⟨rfl, -⟩ := Prod.mk.inj (Option.some.inj h)
    rfl
  | append_singleton offer media ih =>
    obtain ⟨st₁, front, hfront, hst₁, rfl⟩ := answerLines_concat_eq_some h
    obtain ⟨streams, iceUfrag, icePwd, -, -, -, rfl⟩ := Progress.addMedia_eq_some_iff.mp hst₁
    exact (hmedia _ _ _).trans (ih hfront)

/-- A connection that plays another stream announces the SSRCs that this stream has. -/
theorem ssrcs_answerLines (h : answerLines host st offer = some (st', lines))
    {stream : StreamId} (hlocal : st.pc.localStream = some stream)
    (hremote : st.pc.remoteStream = none) (hfresh : host.fresh ≠ stream) :
    List.Forall₂ (fun media line ↦ line.ssrcs = announcement host (st.streams stream) media)
      offer lines := by
  induction offer using List.reverseRecOn generalizing st' lines with
  | nil =>
    obtain ⟨-, rfl⟩ := Prod.mk.inj (Option.some.inj h)
    exact .nil
  | append_singleton offer media ih =>
    obtain ⟨st₁, front, hfront, hst₁, rfl⟩ := answerLines_concat_eq_some h
    refine List.rel_append (ih hfront) (.cons ?_ .nil)
    have hlocal₁ : st₁.pc.localStream = some stream :=
      (answerLines_keeps PeerConnection.localStream (fun _ _ _ ↦ rfl) hfront).trans hlocal
    rw [← streams_answerLines_other hfront hremote hfresh]
    exact answerSSRCs_eq hlocal₁

theorem ice_answerLines (h : answerLines host st offer = some (st', lines)) :
    ∀ line ∈ lines, line.iceUfrag = st.pc.localUsername ∧ line.icePwd = st.pc.localPassword := by
  induction offer using List.reverseRecOn generalizing st' lines with
  | nil =>
    obtain ⟨-, rfl⟩ := Prod.mk.inj (Option.some.inj h)
    simp
  | append_singleton offer media ih =>
    obtain ⟨st₁, front, hfront, -, rfl⟩ := answerLines_concat_eq_some h
    intro line hline
    rcases List.mem_append.mp hline with hline | hline
    · exact ih hfront line hline
    · obtain rfl := List.mem_singleton.mp hline
      exact ⟨answerLines_keeps PeerConnection.localUsername (fun _ _ _ ↦ rfl) hfront,
        answerLines_keeps PeerConnection.localPassword (fun _ _ _ ↦ rfl) hfront⟩

/-- The last m-line decides under which name the peer is known. -/
theorem remoteUsername_answerLines (h : answerLines host st offer = some (st', lines))
    (hlast : offer.getLast? = some media) : media.iceUfrag = some st'.pc.remoteUsername := by
  obtain ⟨front, rfl⟩ := List.getLast?_eq_some_iff.mp hlast
  obtain ⟨st₁, front, -, hst₁, -⟩ := answerLines_concat_eq_some h
  obtain ⟨streams, iceUfrag, icePwd, -, hufrag, -, rfl⟩ := Progress.addMedia_eq_some_iff.mp hst₁
  exact hufrag

end Spadia.Peer.Publishing
