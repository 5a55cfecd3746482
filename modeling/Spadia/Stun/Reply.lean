import Spadia.Stun.Attributes
import Spadia.Stun.Checksum

namespace Spadia.Stun.Reply

open Foundation TracedRead Read ByteBuffer Wire.ByteOrder Packet StunPacket Attributes Checksum

def fingerprint : UInt16 := 0x8028

def lengthField (reply : List UInt8) : UInt16 := be16 (reply.getD 2 0) (reply.getD 3 0)

/-- The header of a message with its length set to `n`, which is what a verifier of the message
integrity hashes. -/
def headerWithLength (reply : List UInt8) (n : ℕ) : List UInt8 :=
  reply.take 2 ++ writeBE16 (UInt16.ofNat n) ++ (reply.take 20).drop 4

/-- What the peer checks in the answer to the transaction `transId`. -/
structure Verifies (hmac : Hmac) (pwd transId reply : List UInt8) : Prop where
  type : reply.take 2 = [0x01, 0x01]
  cookie : (reply.drop 4).take 4 = magicCookie
  transaction : (reply.drop 8).take 12 = transId
  length : (lengthField reply).toNat + 20 = reply.length
  length_le : reply.length ≤ 640
  attributes : ∃ mac fp : Attribute, reply.drop 20 = encodeAll [mac, fp] ∧
    mac.type = messageIntegrity ∧ mac.value.length = 20 ∧
    mac.value = (hmac pwd (headerWithLength reply mac.encode.length)).toList ∧
    fp.type = fingerprint ∧ fp.value.length = 4 ∧
    fp.value = writeBE32 (crc32 (reply.take (20 + mac.encode.length)) ^^^ 0x5354554e)
  parsed : ∀ m, Stores m 0 reply →
    ∃ p, (parse reply.length).value m = some p ∧ p.transId.toList = transId

/-- The 20 bytes in front of the attributes. -/
def header (p : StunPacket) (n : ℕ) : List UInt8 :=
  writeBE16 p.messageType ++ writeBE16 (UInt16.ofNat n) ++ (magicCookie ++ p.transId.toList)

@[simp] theorem length_header (p : StunPacket) (n : ℕ) : (header p n).length = 20 := by
  simp [header, magicCookie]

def integrityAttribute (digest : Vector UInt8 20) : Attribute where
  type := messageIntegrity
  value := digest.toList
  padding := []
  length_value := by simp
  length_padding := by simp
  aligned := by simp

def fingerprintAttribute (crc : UInt32) : Attribute where
  type := fingerprint
  value := writeBE32 crc
  padding := []
  length_value := by simp
  length_padding := by simp
  aligned := by simp

section Buffer

variable (hmac : Hmac) (pwd : List UInt8) (p : StunPacket)

theorem writeHeader_eq : p.writeHeader = write malloc 0 (header p 24) := by
  rw [writeHeader, write_comm _ 8 _ (.inr (by simp)), write_comm _ 4 _ (.inr (by simp)), write_end,
    write_end, write_end, header, List.append_assoc]
  all_goals rfl

theorem encode_integrityAttribute (digest : Vector UInt8 20) :
    (integrityAttribute digest).encode =
      writeBE16 messageIntegrity ++ writeBE16 20 ++ digest.toList := by
  simp [Attribute.encode, integrityAttribute]

@[simp] theorem length_encode_integrityAttribute (digest : Vector UInt8 20) :
    (integrityAttribute digest).encode.length = 24 := by
  simp [encode_integrityAttribute]

theorem encode_fingerprintAttribute (crc : UInt32) :
    (fingerprintAttribute crc).encode = writeBE16 fingerprint ++ writeBE16 4 ++ writeBE32 crc := by
  simp [Attribute.encode, fingerprintAttribute]

theorem writeIntegrity_eq {h : List UInt8} (hh : h.length = 20) :
    writeIntegrity hmac pwd (write malloc 0 h) =
      write malloc 0 (h ++ (integrityAttribute (hmac pwd h)).encode) := by
  have hbuffer : write (write (write malloc 0 h) 20 (writeBE16 messageIntegrity)) 22
      (writeBE16 20) = write malloc 0 (h ++ (writeBE16 messageIntegrity ++ writeBE16 20)) := by
    rw [write_end _ hh, write_end _ (by simp [hh]), List.append_assoc]
  have hhashed : bytes (write malloc 0 (h ++ (writeBE16 messageIntegrity ++ writeBE16 20))) 0 20 =
      h := bytes_write_append _ _ _ hh
  rw [encode_integrityAttribute, ← List.append_assoc, ← write_end _ (by simp [hh] : _ = 24)]
  unfold writeIntegrity
  simp only [stunHeaderSize, attrHeaderSize, hmacSize, Nat.reduceAdd]
  rw [show UInt16.ofNat 20 = 20 from rfl, hbuffer, hhashed]

/-- The length of the message is set once more before the checksum is taken. -/
theorem writeFingerprint_eq {attrs : List UInt8} (hattrs : attrs.length = 24) :
    writeFingerprint 24 (write malloc 0 (header p 24 ++ attrs)) =
      write malloc 0 (header p 32 ++ attrs ++
        (fingerprintAttribute (crc32 (header p 32 ++ attrs) ^^^ 0x5354554e)).encode) := by
  have hpatch : write (write malloc 0 (header p 24 ++ attrs)) 2 (writeBE16 (UInt16.ofNat 32)) =
      write malloc 0 (header p 32 ++ attrs) := by
    simp only [header, List.append_assoc]
    rw [← List.append_assoc, write_patch _ _ (by simp) (by simp), List.append_assoc]
  have hlength : (header p 32 ++ attrs).length = 44 := by simp [hattrs]
  have hsummed : bytes (write malloc 0 (header p 32 ++ attrs)) 0 44 = header p 32 ++ attrs := by
    rw [← hlength, bytes_write]
  unfold writeFingerprint
  simp only [stunHeaderSize, attrHeaderSize, fingerprintSize, Nat.reduceAdd, hpatch, hsummed]
  rw [calculateXORCRC_eq, encode_fingerprintAttribute, write_end _ hlength,
    write_end _ (by simp [hattrs]), write_end _ (by simp [hattrs])]
  simp only [List.append_assoc]
  rfl

/-- The bytes of a message that `Serialize` makes. -/
def replyBytes : List UInt8 :=
  let integrity := integrityAttribute (hmac pwd (header p 24))
  let signed := header p 32 ++ integrity.encode
  signed ++ (fingerprintAttribute (crc32 signed ^^^ 0x5354554e)).encode

theorem length_replyBytes : (replyBytes hmac pwd p).length = 52 := by
  simp [replyBytes, encode_fingerprintAttribute]

theorem serialize_eq : p.serialize hmac pwd = (write malloc 0 (replyBytes hmac pwd p),
    (replyBytes hmac pwd p).length) := by
  rw [length_replyBytes, serialize, writeHeader_eq, writeIntegrity_eq _ _ (length_header p 24)]
  exact congrArg (·, 52) (writeFingerprint_eq p (length_encode_integrityAttribute _))

/-- The two attributes of the message. -/
def replyAttributes : List Attribute :=
  let integrity := integrityAttribute (hmac pwd (header p 24))
  [integrity, fingerprintAttribute (crc32 (header p 32 ++ integrity.encode) ^^^ 0x5354554e)]

theorem replyBytes_eq : replyBytes hmac pwd p =
    header p 32 ++ encodeAll (replyAttributes hmac pwd p) := by
  simp [replyBytes, replyAttributes, encodeAll]

end Buffer

section Verified

variable {p : StunPacket}

theorem headerWithLength_header (n k : ℕ) (l : List UInt8) :
    headerWithLength (header p n ++ l) k = header p k := by
  have hdrop : (header p n).drop 4 = magicCookie ++ p.transId.toList :=
    List.drop_left' (by simp)
  have htake : (header p n ++ l).take 2 = writeBE16 p.messageType := by
    simp only [header, List.append_assoc]
    exact List.take_left' (by simp)
  rw [headerWithLength, List.take_left' (length_header p n), hdrop, htake, header]

theorem messageType_makeResponse {wd : UInt16} (hwd : wd = 0x0001 ∨ wd = 0x0101)
    (hmethod : p.method = wd &&& 0xFEEF) : p.makeResponse.messageType = 0x0101 := by
  simp only [messageType, makeResponse, hmethod]
  rcases hwd with rfl | rfl <;> decide

theorem lengthField_header (n : ℕ) (hn : n < 65536) (l : List UInt8) :
    (lengthField (header p n ++ l)).toNat = n := by
  have hfield : lengthField (header p n ++ l) = UInt16.ofNat n := be16_writeBE16 _
  rw [hfield, UInt16.toNat_ofNat_of_lt' hn]

theorem header_eq (n : ℕ) : header p n =
    (writeBE16 p.messageType ++ writeBE16 (UInt16.ofNat n) ++ magicCookie) ++ p.transId.toList := by
  simp [header]

theorem transId_header (n : ℕ) (l : List UInt8) :
    ((header p n ++ l).drop 8).take 12 = p.transId.toList := by
  rw [header_eq, List.append_assoc, List.drop_left' (by simp [magicCookie]),
    List.take_left' (by simp)]

theorem parse_replyBytes (hmac : Hmac) (pwd : List UInt8) {m : Memory}
    (h : Stores m 0 (replyBytes hmac pwd p)) :
    ∃ q, (parse (replyBytes hmac pwd p).length).value m = some q ∧
      q.transId.toList = p.transId.toList := by
  have hnone : (replyAttributes hmac pwd p).countP Attribute.isUsername = 0 := rfl
  rw [replyBytes_eq] at h ⊢
  obtain ⟨q, hq, -⟩ := exists_parse (length_header p 32) h (by rw [hnone]; decide)
  refine ⟨q, hq, (header_of_parse hq).2.2.trans ?_⟩
  have hstored : Stores m 8 p.transId.toList := by
    rw [header_eq, stores_append, stores_append] at h
    exact h.1.2
  simpa [Stores] using hstored

theorem verifies_replyBytes (hmac : Hmac) (pwd : List UInt8) (htype : p.messageType = 0x0101) :
    Verifies hmac pwd p.transId.toList (replyBytes hmac pwd p) := by
  have hreply := replyBytes_eq hmac pwd p
  have hlength := length_replyBytes hmac pwd p
  refine ⟨?_, ?_, ?_, ?_, ?_, ?_, ?_⟩
  · rw [hreply, header, htype]
    rfl
  · rw [hreply]
    rfl
  · rw [hreply, transId_header]
  · rw [hlength, hreply, lengthField_header 32 (by decide)]
  · rw [hlength]
    decide
  · have hdrop : (replyBytes hmac pwd p).drop 20 = encodeAll (replyAttributes hmac pwd p) := by
      rw [hreply, List.drop_left' (length_header p 32)]
    refine ⟨_, _, hdrop, rfl, by simp [integrityAttribute], ?_, rfl, rfl, ?_⟩
    · rw [length_encode_integrityAttribute, hreply, headerWithLength_header]
      rfl
    · rw [replyBytes, length_encode_integrityAttribute, List.take_left' (by simp)]
      rfl
  · exact fun m h ↦ parse_replyBytes hmac pwd h

end Verified

/-- Every answer to a datagram that was taken for STUN and parsed holds in its buffer a message
that the peer accepts. -/
theorem reply_verifies (hmac : Hmac) (pwd : List UInt8) (m : Memory) (size : ℕ) (p : StunPacket)
    (hstun : isStun.value m = true) (hp : (parse size).value m = some p) :
    ∃ reply, p.makeResponse.serialize hmac pwd = (write malloc 0 reply, reply.length) ∧
      Verifies hmac pwd ((List.range' 8 12).map m) reply := by
  obtain ⟨hmethod, -, htransId⟩ := header_of_parse hp
  obtain ⟨h₀, h₁⟩ := isStun_value.mp hstun
  have hwd : be16 (m 0) (m 1) = 0x0001 ∨ be16 (m 0) (m 1) = 0x0101 := by
    rw [h₁]
    rcases h₀ with h₀ | h₀ <;> rw [h₀] <;> decide
  refine ⟨_, serialize_eq hmac pwd p.makeResponse, ?_⟩
  rw [← htransId]
  exact verifies_replyBytes hmac pwd (messageType_makeResponse hwd hmethod)

/-- The digest of the reply to `named` under the password `secret`. -/
def namedDigest : Vector UInt8 20 :=
  #v[0x91, 0x61, 0x27, 0x39, 0x46, 0x80, 0xFB, 0xC2, 0x85, 0xB1,
    0xA6, 0xB1, 0x15, 0x71, 0x99, 0x6B, 0x4F, 0x11, 0x95, 0x43]

def namedPacket : StunPacket :=
  ⟨[97, 58, 98], 1, 0, #v[1, 2, 3, 4, 5, 6, 7, 8, 9, 10, 11, 12]⟩

theorem named_reply_verifies :
    isStun.value (ofList (requestHeader.toList ++ encodeAll named)) = true ∧
      (parse 36).value (ofList (requestHeader.toList ++ encodeAll named)) = some namedPacket ∧
      ∃ reply, namedPacket.makeResponse.serialize (fun _ _ ↦ namedDigest)
          [115, 101, 99, 114, 101, 116] = (write malloc 0 reply, reply.length) ∧
        Verifies (fun _ _ ↦ namedDigest) [115, 101, 99, 114, 101, 116]
          [1, 2, 3, 4, 5, 6, 7, 8, 9, 10, 11, 12] reply := by
  have hparse : (parse 36).value (ofList (requestHeader.toList ++ encodeAll named)) =
      some namedPacket := by decide +kernel
  exact ⟨by decide, hparse, reply_verifies _ _ _ 36 _ (by decide) hparse⟩

end Spadia.Stun.Reply
