import Spadia.Stun.Reply

namespace Spadia.Stun.MessageType

open Foundation TracedRead Read ByteBuffer Wire.ByteOrder Packet Attributes Reply

def request : UInt16 := 0
def indication : UInt16 := 1
def error : UInt16 := 3

/-- The members of the enumeration `Type`. -/
def types : List UInt16 := [request, indication, response, error]

def classMask : UInt16 := 0x0110

theorem or_and_distrib (a b c : UInt16) : (a ||| b) &&& c = (a &&& c) ||| (b &&& c) :=
  UInt16.toBitVec_inj.mp BitVec.and_or_distrib_right

theorem and_method_iff (wd : UInt16) : wd &&& 0xFEEF = wd ↔ wd &&& classMask = 0 := by
  have hdisjoint : (0xFEEF : UInt16) &&& classMask = 0 := by decide
  have hcover : (0xFEEF : UInt16) ||| classMask = -1 := by decide
  constructor
  · intro h
    rw [← h, UInt16.and_assoc, hdisjoint, UInt16.and_zero]
  · intro h
    calc wd &&& 0xFEEF = (wd &&& 0xFEEF) ||| (wd &&& classMask) := by rw [h, UInt16.or_zero]
      _ = (0xFEEF ||| classMask) &&& wd := by
        rw [or_and_distrib, UInt16.and_comm wd, UInt16.and_comm wd]
      _ = wd := by rw [hcover, UInt16.neg_one_and]

/-- The place of the class in the message type, as `Serialize` spreads it. -/
def spread (type : UInt16) : UInt16 := (type &&& 2) <<< 7 ||| (type &&& 1) <<< 4

theorem messageType_eq (p : StunPacket) : p.messageType = p.method ||| spread p.type :=
  UInt16.or_assoc _ _ _

/-- The class that `Parse` leaves in a packet is in none of the bits that `Serialize` reads. -/
theorem spread_class (wd : UInt16) : spread (wd &&& classMask) = 0 := by
  have hhigh : classMask &&& 2 = 0 := by decide
  have hlow : classMask &&& 1 = 0 := by decide
  rw [spread, UInt16.and_assoc, UInt16.and_assoc, hhigh, hlow, UInt16.and_zero]
  rfl

theorem spread_of_mem_types {type : UInt16} (h : type ∈ types) : spread type &&& 0xFEEF = 0 ∧
    spread type &&& classMask = spread type ∧ (spread type = type ↔ type = request) := by
  simp only [types, List.mem_cons, List.not_mem_nil, or_false] at h
  obtain rfl | rfl | rfl | rfl := h <;> decide

variable (hmac : Hmac) (pwd : List UInt8)

def written (p : StunPacket) : List UInt8 :=
  bytes (p.serialize hmac pwd).1 0 (p.serialize hmac pwd).2

theorem written_eq (p : StunPacket) : written hmac pwd p = replyBytes hmac pwd p := by
  rw [written, serialize_eq, bytes_write]

theorem take_written (p : StunPacket) : (written hmac pwd p).take 2 = writeBE16 p.messageType := by
  rw [written_eq, replyBytes_eq]
  rfl

theorem be16_written {p : StunPacket} {m : Memory} (h : Stores m 0 (written hmac pwd p)) :
    be16 (m 0) (m 1) = p.messageType := by
  rw [written_eq, replyBytes_eq, header] at h
  simp only [writeBE16, List.cons_append, List.nil_append, stores_cons] at h
  rw [h.1, h.2.1, be16_writeBE16]

/-- `Parse` of a written packet gives its method, its type and its transaction back. -/
def Restores (m : Memory) (p : StunPacket) : Prop :=
  ∃ q, (parse (written hmac pwd p).length).value m = some q ∧
    q.method = p.method ∧ q.type = p.type ∧ q.transId = p.transId

theorem restores_iff {p : StunPacket} (hmethod : p.method &&& classMask = 0)
    (htype : p.type ∈ types) {m : Memory} (h : Stores m 0 (written hmac pwd p)) :
    Restores hmac pwd m p ↔ p.type = request := by
  have hwd := be16_written hmac pwd h
  obtain ⟨hclear, hclass, hrequest⟩ := spread_of_mem_types htype
  rw [written_eq] at h
  obtain ⟨q, hq, htransId⟩ := parse_replyBytes hmac pwd h
  obtain ⟨hqmethod, hqtype, -⟩ := header_of_parse hq
  rw [hwd, messageType_eq, or_and_distrib] at hqmethod hqtype
  rw [hclear, UInt16.or_zero, (and_method_iff _).mpr hmethod] at hqmethod
  have hqclass : q.type = spread p.type := by
    rw [hqtype, ← classMask, hmethod, hclass, UInt16.zero_or]
  rw [Restores, written_eq, hq]
  constructor
  · intro hrestores
    obtain ⟨q', hq', -, htype', -⟩ := hrestores
    cases hq'
    exact hrequest.mp (hqclass.symm.trans htype')
  · intro hrequested
    exact ⟨q, rfl, hqmethod, hqclass.trans (hrequest.mpr hrequested),
      Vector.toList_inj.mp htransId⟩

theorem rewritten_iff {header : Vector UInt8 20} {attrs : List Attribute} {m : Memory}
    (h : Stores m 0 (header.toList ++ encodeAll attrs)) :
    ∃ q, (parse (header.toList ++ encodeAll attrs).length).value m = some q ∧
      ((written hmac pwd q).take 2 = header.toList.take 2 ↔
        be16 (header.get 0) (header.get 1) &&& classMask = 0) := by
  obtain ⟨q, hq⟩ := parse_accepts (by simp) h
  obtain ⟨hmethod, htype, -⟩ := header_of_parse hq
  have hbyte := header_stored ((stores_append _ _ _ _).mp h).1
  have htake : header.toList.take 2 = writeBE16 (be16 (header.get 0) (header.get 1)) := by
    rw [writeBE16_be16]
    apply List.ext_getElem
    · simp
    · intro j _ hj
      match j, hj with
      | 0, _ => simp [Vector.get]
      | 1, _ => simp [Vector.get]
  rw [hbyte 0 (by decide), hbyte 1 (by decide)] at hmethod htype
  refine ⟨q, hq, ?_⟩
  rw [take_written, htake, writeBE16_injective.eq_iff, messageType_eq, hmethod, htype, ← classMask,
    ← and_method_iff]
  -- Nothing of the class that was read is written.
  exact iff_of_eq (congrArg (· = _) (by rw [spread_class]; exact UInt16.or_zero))

/-- The type of a message comes through `Parse` and `Serialize` exactly if its class is
Request. -/
theorem type_survives_iff (hmac : Hmac) (pwd : List UInt8) (m : Memory) :
    (∀ p : StunPacket, p.method &&& classMask = 0 → p.type ∈ types →
      Stores m 0 (written hmac pwd p) → (Restores hmac pwd m p ↔ p.type = request)) ∧
    ∀ (header : Vector UInt8 20) (attrs : List Attribute),
      Stores m 0 (header.toList ++ encodeAll attrs) →
      ∃ q, (parse (header.toList ++ encodeAll attrs).length).value m = some q ∧
        ((written hmac pwd q).take 2 = header.toList.take 2 ↔
          be16 (header.get 0) (header.get 1) &&& classMask = 0) :=
  ⟨fun _ hmethod htype h ↦ restores_iff hmac pwd hmethod htype h,
    fun _ _ h ↦ rewritten_iff hmac pwd h⟩

def requested : StunPacket := { namedPacket with username := [] }

def answered : StunPacket := requested.makeResponse

def secret : List UInt8 := [115, 101, 99, 114, 101, 116]

/-- The digests of the headers of the two packets under the password `secret`. -/
def digest : Hmac := fun _ text ↦
  if text.take 2 = [1, 1] then namedDigest
  else #v[0x20, 0x3F, 0x53, 0xC0, 0x66, 0x61, 0x33, 0x35, 0x72, 0xAF,
    0x52, 0x5E, 0x93, 0x41, 0x60, 0x26, 0x5A, 0x8F, 0xBA, 0xBD]

theorem request_survives : requested.method &&& classMask = 0 ∧
    Restores digest secret (ofList (written digest secret requested)) requested ∧
    ∃ q, (parse 36).value (ofList (requestHeader.toList ++ encodeAll named)) = some q ∧
      (written digest secret q).take 2 = requestHeader.toList.take 2 := by
  refine ⟨by decide, ?_, ?_⟩
  · exact ((type_survives_iff _ _ _).1 _ (by decide) (by decide) (by decide +kernel)).mpr rfl
  · obtain ⟨q, hq, hiff⟩ := (type_survives_iff digest secret
      (ofList (requestHeader.toList ++ encodeAll named))).2 requestHeader named (by decide)
    exact ⟨q, hq, hiff.mpr (by decide)⟩

/-- The type of the answer is read as 0x0100, and what was read is written as a request. -/
theorem response_lost :
    (written digest secret answered).take 2 = [1, 1] ∧
    (parse 52).value (ofList (written digest secret answered)) =
      some { answered with type := 0x0100 } ∧
    (written digest secret { answered with type := 0x0100 }).take 2 = [0, 1] ∧
    ¬ Restores digest secret (ofList (written digest secret answered)) answered := by
  have hparse : (parse 52).value (ofList (written digest secret answered)) =
      some { answered with type := 0x0100 } := by decide +kernel
  refine ⟨by decide +kernel, hparse, by decide +kernel, ?_⟩
  intro h
  obtain ⟨q, hq, -, htype, -⟩ := h
  have hlength : (written digest secret answered).length = 52 := by decide +kernel
  rw [hlength] at hq
  cases hparse.symm.trans hq
  exact absurd htype (by decide)

end Spadia.Stun.MessageType
