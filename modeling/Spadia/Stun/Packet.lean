import Spadia.Foundation.ByteBuffer
import Spadia.Stun.Crc32
import Spadia.Wire.ByteOrder

namespace Spadia.Stun.Packet

open Foundation.TracedRead Read Foundation.ByteBuffer Wire.ByteOrder Crc32

def magicCookie : List UInt8 := [0x21, 0x12, 0xA4, 0x42]
def stunHeaderSize : ℕ := 20
def attrHeaderSize : ℕ := 4
def hmacSize : ℕ := 20
def fingerprintSize : ℕ := 4

def response : UInt16 := 2

def username : UInt16 := 0x0006
def messageIntegrity : UInt16 := 0x0008

/-- HMAC-SHA1 of a message under a key. -/
abbrev Hmac := List UInt8 → List UInt8 → Vector UInt8 20

/-- `method` and `type` hold what the casts of the source leave in the enumerations, which
may be none of their members. -/
structure StunPacket where
  username : List UInt8 := []
  method : UInt16
  type : UInt16
  transId : Vector UInt8 12
deriving DecidableEq, Repr

/-- `StunPacket::IsStun`, which does not look at the size. -/
def isStun : Read Bool := do
  let b₀ ← byte 0
  let request ← if b₀ = 0x00 then do
      let b₁ ← byte 1
      pure (b₁ = 0x01 : Bool)
    else pure false
  if request then
    return true
  let b₀ ← byte 0
  if b₀ = 0x01 then do
    let b₁ ← byte 1
    return (b₁ = 0x01 : Bool)
  else return false

/-- The two message types that `IsStun` knows: Binding request and Binding response. -/
theorem isStun_value {m : Memory} :
    isStun.value m = true ↔ (m 0 = 0 ∨ m 0 = 1) ∧ m 1 = 1 := by
  simp only [isStun, value_bind, value_byte, value_ite, value_pure]
  by_cases h₀ : m 0 = 0
  · by_cases h₁ : m 1 = 1 <;> simp [h₀, h₁]
  · by_cases h₁ : m 0 = 1 <;> simp [h₀, h₁]

theorem isStun_inside {m : Memory} {size : ℕ} :
    Inside size isStun m ↔ 0 < size ∧ (m 0 = 0 ∨ m 0 = 1 → 1 < size) := by
  simp only [isStun, inside_bind, inside_byte, inside_ite, inside_pure, value_byte, value_pure]
  by_cases h₀ : m 0 = 0
  · by_cases h₁ : m 1 = 1
    · simp [h₀, h₁]
    · simp [h₀, h₁]
      omega
  · by_cases h₁ : m 0 = 1 <;> simp [h₀, h₁]

def readName (attrType : UInt16) (i attrLen : ℕ) (name : List UInt8) : Read (List UInt8) :=
  if attrType = username then block i attrLen else return name

/-- The attribute loop of `Parse` at index `i`: the user name, or `none` where the source
returns a null pointer. The index is an `int` in the source, and no sum leaves its range for a
size of up to `2 ^ 31 - 65536`. -/
def attributeLoop (size : ℤ) (name : List UInt8) (i : ℕ) : Read (Option (List UInt8)) :=
  if _h : i + 4 < size then do
    let attrType ← readBE16 i
    let attrLen ← readBE16 (i + 2)
    if i + attrHeaderSize + attrLen.toNat > size then
      return none
    else do
      let name ← readName attrType (i + attrHeaderSize) attrLen.toNat name
      attributeLoop size name (i + attrHeaderSize + (pad32 attrLen.toUInt32).toNat)
  else return some name
termination_by (size - i).toNat
decreasing_by simp only [attrHeaderSize]; omega

def parse (size : ℤ) : Read (Option StunPacket) := do
  let wd ← readBE16 0
  let transId ← array 8 12
  let name ← attributeLoop size [] stunHeaderSize
  return name.map fun name ↦
    { username := name, method := wd &&& 0xFEEF, type := wd &&& 0x0110, transId }

theorem header_of_parse {m : Memory} {size : ℤ} {p : StunPacket}
    (h : (parse size).value m = some p) :
    p.method = be16 (m 0) (m 1) &&& 0xFEEF ∧ p.type = be16 (m 0) (m 1) &&& 0x0110 ∧
      p.transId.toList = (List.range' 8 12).map m := by
  simp only [parse, value_bind, value_pure, value_readBE16, Option.map_eq_some_iff] at h
  obtain ⟨name, -, rfl⟩ := h
  refine ⟨rfl, rfl, ?_⟩
  apply List.ext_getElem
  · simp
  · intro j hj hj'
    simp [array, value]

namespace StunPacket

def makeResponse (p : StunPacket) : StunPacket := { p with type := response }

def messageType (p : StunPacket) : UInt16 :=
  p.method ||| (p.type &&& 2) <<< 7 ||| (p.type &&& 1) <<< 4

def writeHeader (p : StunPacket) : Buffer :=
  write (write (write (write malloc 0 (writeBE16 p.messageType)) 4 magicCookie) 8
      p.transId.toList)
    2 (writeBE16 (UInt16.ofNat (attrHeaderSize + hmacSize)))

def writeIntegrity (hmac : Hmac) (pwd : List UInt8) (buffer : Buffer) : Buffer :=
  let buffer := write (write buffer stunHeaderSize (writeBE16 messageIntegrity))
    (stunHeaderSize + 2) (writeBE16 (UInt16.ofNat hmacSize))
  write buffer (stunHeaderSize + attrHeaderSize)
    (hmac pwd (bytes buffer 0 stunHeaderSize)).toList

def writeFingerprint (attrSize : ℕ) (buffer : Buffer) : Buffer :=
  let buffer := write buffer 2
    (writeBE16 (UInt16.ofNat (attrSize + attrHeaderSize + fingerprintSize)))
  let crc32 := calculateXORCRC (bytes buffer 0 (attrSize + stunHeaderSize))
  write (write (write buffer (stunHeaderSize + attrSize) (writeBE16 0x8028))
      (stunHeaderSize + attrSize + 2) (writeBE16 (UInt16.ofNat fingerprintSize)))
    (stunHeaderSize + attrSize + attrHeaderSize) (writeBE32 crc32)

/-- `StunPacket::Serialize`: the new buffer and the number of bytes. -/
def serialize (hmac : Hmac) (pwd : List UInt8) (p : StunPacket) : Buffer × ℕ :=
  let attrSize := attrHeaderSize + hmacSize
  (writeFingerprint attrSize (writeIntegrity hmac pwd p.writeHeader),
    attrSize + attrHeaderSize + fingerprintSize + stunHeaderSize)

end StunPacket

end Spadia.Stun.Packet
