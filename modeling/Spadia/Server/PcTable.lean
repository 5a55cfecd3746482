import Spadia.Foundation.KeyedTable
import Spadia.Peer.Connection

namespace Spadia.Server.PcTable

open Foundation TracedRead Read ByteBuffer KeyedTable Stun.Packet Peer.Connection

/-- A shared pointer to a connection. -/
abbrev PeerId := ℕ

/-- `Server::pcTable`. -/
abbrev Table := List UInt8 → Option PeerId

def isAlphanumeric (c : UInt8) : Bool :=
  0x30 ≤ c ∧ c ≤ 0x39 ∨ 0x41 ≤ c ∧ c ≤ 0x5A ∨ 0x61 ≤ c ∧ c ≤ 0x7A

/-- `randomID` for the text `id` of a new uuid. -/
def randomID (id : List UInt8) : List UInt8 := id.filter isAlphanumeric

def colon : UInt8 := 0x3A

def pcName (localUsername remoteUsername : List UInt8) : List UInt8 :=
  localUsername ++ [colon] ++ remoteUsername

def nameOf (pc : PeerConnection) : List UInt8 := pcName pc.localUsername pc.remoteUsername

def addPC (pcTable : Table) (id : PeerId) (pc : PeerConnection) : Table :=
  Function.update pcTable (nameOf pc) (some id)

def removePC (pcTable : Table) (localUsername remoteUsername : List UInt8) : Table :=
  Function.update pcTable (pcName localUsername remoteUsername) none

/-- The lookup of `OnData`. -/
def find (pcTable : Table) (username : List UInt8) : Option PeerId := pcTable username

/-- What `OnData` does with a datagram: the connection it finds, and the reply that it builds
and hands to `uv_udp_send`. None leaves the server: its socket is never opened, and the address
of the call is null. -/
structure DataOutcome where
  selected : Option PeerId := none
  reply : Option (Buffer × ℕ) := none
  fault : Option Fault := none

/-- `Server::OnData`; `Active` returns at once. -/
def onData (hmac : Hmac) (pcTable : Table) (peers : PeerId → PeerConnection) (len : ℕ) :
    Read DataOutcome := do
  let stun ← isStun
  if stun then do
    let p ← Stun.Packet.parse len
    match p with
    | none => return { fault := some .nullStunPacket }
    | some p =>
      let q := p.makeResponse
      match find pcTable p.username with
      | some id =>
        return { selected := some id, reply := some (q.serialize hmac (peers id).localPassword) }
      | none => return {}
  else return {}

theorem selected_onData (hmac : Hmac) (pcTable : Table) (peers : PeerId → PeerConnection)
    {len : ℕ} {m : Memory} {p : StunPacket} (hstun : isStun.value m = true)
    (hp : (Stun.Packet.parse len).value m = some p) :
    ((onData hmac pcTable peers len).value m).selected = find pcTable p.username := by
  simp only [onData, value_bind, hstun, if_true, hp]
  cases find pcTable p.username <;> rfl

section Names

theorem colon_notMem_randomID (id : List UInt8) : colon ∉ randomID id := by
  intro h
  exact absurd (List.mem_filter.mp h).2 (by decide)

theorem takeWhile_pcName {l : List UInt8} (hl : colon ∉ l) (r : List UInt8) :
    (pcName l r).takeWhile (· ≠ colon) = l := by
  have hall : ∀ c ∈ l, decide (c ≠ colon) = true := by
    intro c hc
    simpa using fun h : c = colon ↦ hl (h ▸ hc)
  rw [pcName, List.append_assoc, List.takeWhile_append_of_pos hall]
  simp

theorem pcName_injective {l l' r r' : List UInt8} (hl : colon ∉ l) (hl' : colon ∉ l')
    (h : pcName l r = pcName l' r') : l = l' ∧ r = r' := by
  have hlocal : l = l' := by
    rw [← takeWhile_pcName hl r, h, takeWhile_pcName hl']
  subst hlocal
  exact ⟨rfl, List.append_cancel_left h⟩

end Names

inductive Operation
  | addPC (id : PeerId) (pc : PeerConnection)
  | removePC (localUsername remoteUsername : List UInt8)

namespace Operation

def names : Operation → List UInt8 × List UInt8
  | addPC _ pc => (pc.localUsername, pc.remoteUsername)
  | removePC localUsername remoteUsername => (localUsername, remoteUsername)

def value : Operation → Option PeerId
  | addPC id _ => some id
  | removePC _ _ => none

def perform (pcTable : Table) : Operation → Table
  | addPC id pc => PcTable.addPC pcTable id pc
  | removePC localUsername remoteUsername => PcTable.removePC pcTable localUsername remoteUsername

theorem perform_eq : perform = apply names (fun n ↦ pcName n.1 n.2) value := by
  funext pcTable o
  cases o <;> rfl

end Operation

open Operation

theorem pcName_injOn :
    Set.InjOn (fun n : List UInt8 × List UInt8 ↦ pcName n.1 n.2)
      {n | n.1 ∈ Set.range randomID} := by
  rintro ⟨_, r⟩ ⟨id, rfl⟩ ⟨_, r'⟩ ⟨id', rfl⟩ h
  obtain ⟨hl, hr⟩ := pcName_injective (colon_notMem_randomID id) (colon_notMem_randomID id') h
  exact Prod.ext hl hr

/-- Whatever the peers choose as their names, an entry belongs to one pair of names. -/
theorem routing_isolated (ops : List Operation)
    (hops : ∀ o ∈ ops, o.names.1 ∈ Set.range randomID) :
    (∀ u id, find (ops.foldl perform fun _ ↦ none) u = some id ↔
      ∃ l ∈ Set.range randomID, ∃ r, u = pcName l r ∧
        ∃ pc, Latest names ops (.addPC id pc) ∧ pc.localUsername = l ∧ pc.remoteUsername = r) ∧
    ∀ o₁ ∈ ops, ∀ o₂ ∈ ops, o₁.names ≠ o₂.names → ∀ pcTable,
      find (perform pcTable o₁) (pcName o₂.names.1 o₂.names.2) =
        find pcTable (pcName o₂.names.1 o₂.names.2) := by
  have hkey : Set.InjOn (fun n : List UInt8 × List UInt8 ↦ pcName n.1 n.2)
      {n | ∃ o ∈ ops, o.names = n} := by
    apply pcName_injOn.mono
    intro n hn
    obtain ⟨o, ho, rfl⟩ := hn
    exact hops o ho
  constructor
  · intro u id
    rw [find, perform_eq, foldl_apply_eq_some_iff _ _ _ hkey]
    constructor
    · intro h
      obtain ⟨o, hlatest, rfl, hvalue⟩ := h
      cases o with
      | addPC id' pc =>
        obtain rfl : id' = id := Option.some.inj hvalue
        exact ⟨_, hops _ hlatest.mem, _, rfl, pc, hlatest, rfl, rfl⟩
      | removePC l r => cases hvalue
    · intro h
      obtain ⟨l, -, r, rfl, pc, hlatest, rfl, rfl⟩ := h
      exact ⟨_, hlatest, rfl, rfl⟩
  · intro o₁ h₁ o₂ h₂ hne pcTable
    rw [perform_eq]
    apply Function.update_of_ne
    intro h
    exact hne (hkey ⟨o₁, h₁, rfl⟩ ⟨o₂, h₂, rfl⟩ h.symm)

def peerNamed (localUsername remoteUsername : List UInt8) : PeerConnection :=
  { (default : PeerConnection) with localUsername, remoteUsername }

/-- The names `a` and `b:c`, then `a` and `b`, then `ab` and `c`. -/
def hostile : List Operation :=
  [.addPC 1 (peerNamed [0x61] [0x62, 0x3A, 0x63]), .removePC [0x61] [0x62],
    .addPC 2 (peerNamed [0x61, 0x62] [0x63])]

theorem hostile_isolated : (∀ o ∈ hostile, o.names.1 ∈ Set.range randomID) ∧
    find (hostile.foldl perform fun _ ↦ none) [0x61, 0x3A, 0x62, 0x3A, 0x63] = some 1 := by
  have hops : ∀ o ∈ hostile, o.names.1 ∈ Set.range randomID := by
    simp only [hostile, List.forall_mem_cons, List.not_mem_nil, false_implies, implies_true,
      and_true]
    exact ⟨⟨[0x61], by decide⟩, ⟨[0x2D, 0x61], by decide⟩, ⟨[0x61, 0x2D, 0x62], by decide⟩⟩
  refine ⟨hops, ((routing_isolated hostile hops).1 _ _).mpr ?_⟩
  refine ⟨_, hops _ (List.mem_cons_self ..), _, rfl, _, ⟨[], _, rfl, ?_⟩, rfl, rfl⟩
  simp only [List.forall_mem_cons, List.not_mem_nil, false_implies, implies_true, and_true]
  decide

end Spadia.Server.PcTable
