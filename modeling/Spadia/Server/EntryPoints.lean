import Spadia.Server.PcTable
import Spadia.Stun.Attributes

namespace Spadia.Server.EntryPoints

open Foundation TracedRead Read Wire.ByteOrder Stun.Packet Stun.Attributes Peer.Connection
open PeerConnection PcTable

/-- A Binding request, well formed by construction. -/
structure BindingRequest where
  transId : Vector UInt8 12
  attrs : List Attribute
  one_username : attrs.countP Attribute.isUsername ≤ 1
  length_attrs : (encodeAll attrs).length < 65536

namespace BindingRequest

def header (d : BindingRequest) : List UInt8 :=
  writeBE16 0x0001 ++ writeBE16 (UInt16.ofNat (encodeAll d.attrs).length) ++ magicCookie ++
    d.transId.toList

def bytes (d : BindingRequest) : List UInt8 := d.header ++ encodeAll d.attrs

/-- The value of the user name attribute, empty if there is none. -/
def username (d : BindingRequest) : List UInt8 := firstName [] d.attrs

theorem length_header (d : BindingRequest) : d.header.length = 20 := by
  simp [header, magicCookie]

theorem isStun_of_stores {d : BindingRequest} {m : Memory} (h : Stores m 0 d.bytes) :
    isStun.value m = true := by
  simp only [bytes, header, writeBE16, List.cons_append, stores_cons] at h
  exact isStun_value.mpr ⟨.inl h.1, h.2.1⟩

theorem exists_parse_of_stores {d : BindingRequest} {m : Memory} (h : Stores m 0 d.bytes) :
    ∃ p, (parse d.bytes.length).value m = some p ∧ p.username = d.username :=
  exists_parse d.length_header h d.one_username

end BindingRequest

variable (hmac : Hmac) (env : Environment) (pcTable : Table) (peers : PeerId → PeerConnection)
variable (id : PeerId) (data : ℕ) (source : Address) (d : BindingRequest) (m : Memory)

/-- The handler of the connection's own socket answers a request, and takes its source for the
peer, exactly when the server would hand the request to the connection. -/
structure Agrees : Prop where
  addressed :
    ((∃ reply, .send source reply ∈
        ((onSocketData hmac env (peers id) data d.bytes.length source).value m).effects) ∧
      ((onSocketData hmac env (peers id) data d.bytes.length source).value m).pc.lastRemote =
        source) ↔
    ((onData hmac pcTable peers d.bytes.length).value m).selected = some id
  selected_iff : ((onData hmac pcTable peers d.bytes.length).value m).selected = some id ↔
    d.username = nameOf (peers id)
  silent : d.username ≠ nameOf (peers id) →
    ((onSocketData hmac env (peers id) data d.bytes.length source).value m).effects = [] ∧
    ((onSocketData hmac env (peers id) data d.bytes.length source).value m).pc.lastRemote =
      (peers id).lastRemote

variable {m d}

/-- The connection's own socket answers every request. -/
theorem onSocketData_request (h : Stores m 0 d.bytes) :
    (∃ reply, ((onSocketData hmac env (peers id) data d.bytes.length source).value m).effects =
      [.send source reply]) ∧
    ((onSocketData hmac env (peers id) data d.bytes.length source).value m).pc.lastRemote =
      source := by
  obtain ⟨p, hp, -⟩ := BindingRequest.exists_parse_of_stores h
  rw [onSocketData_reply _ _ _ _ _ _ (BindingRequest.isStun_of_stores h) hp]
  exact ⟨⟨_, rfl⟩, rfl⟩

/-- A request that carries another name is answered as well. -/
theorem agrees_iff (hregistered : find pcTable (nameOf (peers id)) = some id)
    (h : Stores m 0 d.bytes) :
    Agrees hmac env pcTable peers id data source d m ↔ d.username = nameOf (peers id) := by
  obtain ⟨⟨reply, heffects⟩, hremote⟩ := onSocketData_request hmac env peers id data source h
  constructor
  · intro hagrees
    by_contra hne
    rw [(hagrees.silent hne).1] at heffects
    cases heffects
  · intro hname
    obtain ⟨p, hp, husername⟩ := BindingRequest.exists_parse_of_stores h
    have hselected : ((onData hmac pcTable peers d.bytes.length).value m).selected = some id := by
      rw [selected_onData _ _ _ (BindingRequest.isStun_of_stores h) hp, husername, hname,
        hregistered]
    exact ⟨iff_of_true ⟨⟨reply, by simp [heffects]⟩, hremote⟩ hselected,
      iff_of_true hselected hname, fun hne ↦ absurd hname hne⟩

/-- A request with the user name `a:b`. -/
def request : BindingRequest where
  transId := Vector.replicate 12 7
  attrs := named
  one_username := by decide
  length_attrs := by decide

/-- The table with one connection. -/
def registered (pc : PeerConnection) : Table := addPC (fun _ ↦ none) 0 pc

theorem request_agrees : find (registered (peerNamed [97] [98])) [97, 58, 98] = some 0 ∧
    Stores (ofList request.bytes) 0 request.bytes ∧
    Agrees default default (registered (peerNamed [97] [98])) (fun _ ↦ peerNamed [97] [98]) 0 0 5
      request (ofList request.bytes) :=
  ⟨by decide, by decide, (agrees_iff _ _ _ _ _ _ _ (by decide) (by decide)).mpr (by decide)⟩

/-- The peer `a:c` answers the request for `a:b` and sends its media to the source from then
on, while the server finds nobody for it. -/
theorem request_misdirected :
    find (registered (peerNamed [97] [99])) [97, 58, 99] = some 0 ∧
    Stores (ofList request.bytes) 0 request.bytes ∧ request.username = [97, 58, 98] ∧
    ¬ Agrees default default (registered (peerNamed [97] [99])) (fun _ ↦ peerNamed [97] [99]) 0 0 5
      request (ofList request.bytes) := by
  refine ⟨by decide, by decide, by decide, ?_⟩
  intro hagrees
  have hstored : Stores (ofList request.bytes) 0 request.bytes := by decide
  obtain ⟨⟨reply, heffects⟩, -⟩ := onSocketData_request default default
    (fun _ ↦ peerNamed [97] [99]) 0 0 5 hstored
  rw [(hagrees.silent (by decide)).1] at heffects
  cases heffects

end Spadia.Server.EntryPoints
