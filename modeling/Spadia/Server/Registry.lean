import Spadia.Foundation.LabelledRun
import Spadia.Server.PcTable

namespace Spadia.Server.Registry

open Foundation LabelledRun Peer.Connection PeerConnection PcTable

section Names

/-- Of all m-lines, the last one decides. -/
theorem createAnswer_remoteUsername (pc : PeerConnection) (offer : List Media)
    (fresh : StreamId) :
    (pc.createAnswer offer fresh).remoteUsername =
      (offer.getLast?.map Media.iceUfrag).getD pc.remoteUsername := by
  induction offer using List.reverseRecOn with
  | nil => rfl
  | append_singleton offer media ih =>
    rw [createAnswer, List.foldl_append, List.getLast?_concat]
    rfl

theorem nameOf_createAnswer_eq_iff {pc : PeerConnection} {offer : List Media} (fresh : StreamId) :
    nameOf (pc.createAnswer offer fresh) = nameOf pc ↔
      ∀ media, offer.getLast? = some media → media.iceUfrag = pc.remoteUsername := by
  rw [nameOf, nameOf, createAnswer_localUsername, createAnswer_remoteUsername]
  constructor
  · intro h media hmedia
    rw [hmedia] at h
    exact List.append_cancel_left h
  · intro h
    cases hlast : offer.getLast? with
    | none => rfl
    | some media => rw [← h media hlast]; rfl

end Names

/-- The connections and the table that the server keeps of them. -/
structure State where
  peers : PeerId → PeerConnection
  pcTable : Table := fun _ ↦ none

/-- The calls on a connection. A `failedAnswer` is a `CreateAnswer` that ends in an exception
after it took in `offer`. -/
inductive Label
  | createAnswer (id : PeerId) (offer : List Media) (fresh : StreamId)
  | failedAnswer (id : PeerId) (offer : List Media) (fresh : StreamId)
  | setRemoteSdp (id : PeerId)
  | destroy (id : PeerId)

namespace State

def setPeer (s : State) (id : PeerId) (pc : PeerConnection) : State :=
  { s with peers := Function.update s.peers id pc }

def addPC (s : State) (id : PeerId) : State :=
  { s with pcTable := PcTable.addPC s.pcTable id (s.peers id) }

def removePC (s : State) (id : PeerId) : State :=
  { s with
    pcTable := PcTable.removePC s.pcTable (s.peers id).localUsername (s.peers id).remoteUsername }

theorem pcTable_addPC (s : State) (id : PeerId) (key : List UInt8) :
    (s.addPC id).pcTable key = if key = nameOf (s.peers id) then some id else s.pcTable key :=
  Function.update_apply ..

theorem pcTable_removePC (s : State) (id : PeerId) (key : List UInt8) :
    (s.removePC id).pcTable key = if key = nameOf (s.peers id) then none else s.pcTable key :=
  Function.update_apply ..

theorem peers_setPeer (s : State) (id id' : PeerId) (pc : PeerConnection) :
    (s.setPeer id pc).peers id' = if id' = id then pc else s.peers id' :=
  Function.update_apply ..

def step (s : State) : Label → Option State
  | .createAnswer id offer fresh =>
    some ((s.setPeer id ((s.peers id).createAnswer offer fresh)).addPC id)
  | .failedAnswer id offer fresh => some (s.setPeer id ((s.peers id).createAnswer offer fresh))
  | .setRemoteSdp id => some (s.addPC id)
  | .destroy id => some (s.removePC id)

/-- No entry is stale: each connection is found under its present names only, and not at all
after `Destroy`. -/
structure Fresh (s : State) : Prop where
  current : ∀ key id, s.pcTable key = some id → key = nameOf (s.peers id)
  unique : ∀ key key' id, s.pcTable key = some id → s.pcTable key' = some id → key = key'
  destroyed : ∀ id s', s.step (.destroy id) = some s' → ∀ key, s'.pcTable key ≠ some id

/-- A connection that has an entry gets no new remote name. -/
def KeepsName (s : State) : Label → Prop
  | .createAnswer id offer _ | .failedAnswer id offer _ => (∃ key, s.pcTable key = some id) →
      ∀ media, offer.getLast? = some media → media.iceUfrag = (s.peers id).remoteUsername
  | .setRemoteSdp _ | .destroy _ => True

def Current (s : State) : Prop := ∀ key id, s.pcTable key = some id → key = nameOf (s.peers id)

theorem fresh_iff_current {s : State} : Fresh s ↔ Current s := by
  refine ⟨Fresh.current, fun h ↦ ⟨h, ?_, ?_⟩⟩
  · intro key key' id hkey hkey'
    rw [h key id hkey, h key' id hkey']
  · intro id s' hs' key hkey
    obtain rfl := Option.some.inj hs'
    rw [pcTable_removePC] at hkey
    split at hkey
    case isTrue => cases hkey
    case isFalse hname => exact hname (h key id hkey)

theorem current_addPC {s : State} (h : Current s) (id : PeerId) : Current (s.addPC id) := by
  intro key id' hkey
  rw [pcTable_addPC] at hkey
  split at hkey
  case isTrue hname =>
    obtain rfl := Option.some.inj hkey
    exact hname
  case isFalse => exact h key id' hkey

theorem current_removePC {s : State} (h : Current s) (id : PeerId) : Current (s.removePC id) := by
  intro key id' hkey
  rw [pcTable_removePC] at hkey
  split at hkey
  case isTrue => cases hkey
  case isFalse => exact h key id' hkey

theorem current_setPeer {s : State} (h : Current s) {id : PeerId} {pc : PeerConnection}
    (hname : (∃ key, s.pcTable key = some id) → nameOf pc = nameOf (s.peers id)) :
    Current (s.setPeer id pc) := by
  intro key id' hkey
  rw [peers_setPeer]
  split
  case isTrue hid =>
    subst hid
    rw [h key id' hkey, hname ⟨key, hkey⟩]
  case isFalse => exact h key id' hkey

/-- A connection whose name changes leaves its entry behind. -/
theorem nameOf_eq_of_current {s t : State} (h : Current s) {id : PeerId} {pc : PeerConnection}
    (hpeer : t.peers id = pc) (hkept : ∀ key, key ≠ nameOf pc → t.pcTable key = s.pcTable key)
    (ht : Current t) (hentry : ∃ key, s.pcTable key = some id) :
    nameOf pc = nameOf (s.peers id) := by
  obtain ⟨key, hkey⟩ := hentry
  by_contra hne
  rw [h key id hkey] at hkey
  have hstale := hkept _ (Ne.symm hne)
  rw [hkey] at hstale
  exact hne (hpeer ▸ ht _ id hstale).symm

theorem current_step_iff {s s' : State} {l : Label} (h : Current s) (hs' : s.step l = some s') :
    Current s' ↔ s.KeepsName l := by
  cases l with
  | createAnswer id offer fresh =>
    obtain rfl := Option.some.inj hs'
    rw [KeepsName, ← nameOf_createAnswer_eq_iff fresh]
    have hpeer : ((s.setPeer id ((s.peers id).createAnswer offer fresh)).addPC id).peers id =
        (s.peers id).createAnswer offer fresh := Function.update_self ..
    refine ⟨nameOf_eq_of_current h hpeer fun key hkey ↦ ?_, fun hname ↦
      current_addPC (current_setPeer h hname) id⟩
    rw [← hpeer] at hkey
    rw [pcTable_addPC]
    exact if_neg hkey
  | failedAnswer id offer fresh =>
    obtain rfl := Option.some.inj hs'
    rw [KeepsName, ← nameOf_createAnswer_eq_iff fresh]
    exact ⟨nameOf_eq_of_current h (Function.update_self ..) fun _ _ ↦ rfl, current_setPeer h⟩
  | setRemoteSdp id =>
    obtain rfl := Option.some.inj hs'
    exact iff_of_true (current_addPC h id) trivial
  | destroy id =>
    obtain rfl := Option.some.inj hs'
    exact iff_of_true (current_removePC h id) trivial

theorem step_ne_none (s : State) (l : Label) : s.step l ≠ none := by
  cases l <;> exact Option.some_ne_none _

end State

open State

/-- The table of a run stays fresh exactly as long as no connection that has an entry is given a
new name by an offer. -/
theorem run_fresh_iff (peers : PeerId → PeerConnection) (labels : List Label) :
    (∀ ls, ls <+: labels → ∀ s, run step { peers } ls = some s → Fresh s) ↔
      Along step KeepsName { peers } labels := by
  refine forall_prefix_iff_along (fun s l hs ↦ absurd hs (step_ne_none s l))
    (fun s l s' h hs' ↦ ?_) ?_
  · rw [fresh_iff_current, current_step_iff (fresh_iff_current.mp h) hs']
  · rw [fresh_iff_current]
    intro key id hkey
    cases hkey

/-- Two offers of one peer with the names `b` and `c`, and then the end of the connection. -/
def renegotiated : List Label :=
  [.createAnswer 0 [⟨.recvonly, [], [98], []⟩] 0, .createAnswer 0 [⟨.recvonly, [], [99], []⟩] 0,
    .destroy 0]

/-- The entry `a:b` of the first offer is still there after `Destroy`. -/
theorem renegotiated_stale : ∃ s, run step { peers := fun _ ↦ peerNamed [97] [] } renegotiated =
    some s ∧ s.pcTable [97, 58, 98] = some 0 ∧ ¬ Fresh s := by
  refine ⟨_, rfl, by decide, ?_⟩
  intro h
  exact absurd (h.current [97, 58, 98] 0 (by decide)) (by decide)

end Spadia.Server.Registry
