import Std.Data.ExtTreeMap
import Mathlib.Tactic.Common
import Spadia.Foundation.ByteBuffer
import Spadia.Wire.ByteOrder

namespace Spadia.Rtp.Packet

open Foundation.TracedRead Read Foundation.ByteBuffer Wire.ByteOrder

def kFixedHeaderSize : ℕ := 12
def kRtpVersion : UInt8 := 2
def kOneByteExtensionProfileId : UInt16 := 0xBEDE
def kTwoByteExtensionProfileId : UInt16 := 0x1000
def kOneByteExtensionHeaderLength : ℕ := 1
def kTwoByteExtensionHeaderLength : ℕ := 2
def kPaddingByte : UInt8 := 0
def kPaddingId : UInt8 := 0
def kOneByteHeaderExtensionReservedId : UInt8 := 15

/-- One recorded header extension. The pointer `data` is kept as an index into the
datagram that the packet was parsed from. -/
structure RTPExtension where
  id : UInt8
  length : UInt8
  data : ℕ
deriving DecidableEq, Repr

structure RTPSession where
  ssrc : UInt32
  seq : UInt16
  pt : UInt8
deriving DecidableEq, Repr

/-- A received packet. It aliases the receive buffer `data`; the payload and the
extensions are index ranges of that buffer. -/
structure RTPPacket where
  payloadOffset : ℕ
  payloadSize : ℕ
  ssrc : UInt32
  timestamp : UInt32
  seqNum : UInt16
  payloadType : UInt8
  maker : Bool
  data : ℕ
  size : ℕ
  paddingSize : ℕ
  seqCycle : UInt16
  recvTimeMS : UInt64
  exts : Std.ExtTreeMap UInt16 RTPExtension
deriving Inhabited

namespace RTPPacket

/-- The constructor sets the receive time only. The members without an initialiser keep
what `raw` holds. -/
def create (raw : RTPPacket) (now : UInt64) : RTPPacket :=
  { raw with seqCycle := 0, recvTimeMS := now, exts := ∅ }

def extSeqNum (p : RTPPacket) : UInt32 := p.seqCycle.toUInt32 <<< 16 ||| p.seqNum.toUInt32

/-- The number under extension `id`, or `none` where the source returns `false`. -/
def getTransportCCNum (p : RTPPacket) (id : UInt8) : Read (Option UInt16) :=
  match p.exts[id.toUInt16]? with
  | some e => do
    let num ← readBE16 e.data
    return some num
  | none => return none

end RTPPacket

/-- The conversion of an integer that is returned from a function declared `bool`. -/
def boolOfInt (x : ℤ) : Bool := x ≠ 0

def extensionHeaderLength (profile : UInt16) : ℕ :=
  if profile = kOneByteExtensionProfileId then kOneByteExtensionHeaderLength
  else kTwoByteExtensionHeaderLength

theorem extensionHeaderLength_pos (profile : UInt16) : 0 < extensionHeaderLength profile := by
  unfold extensionHeaderLength
  split <;> decide

/-- The element loop over an extension block of `capacity` bytes at index `offset`, with
`extensions_size_ = pos`. -/
def extensionLoop (profile : UInt16) (offset capacity : ℕ)
    (exts : Std.ExtTreeMap UInt16 RTPExtension) (pos : ℕ) :
    Read (Std.ExtTreeMap UInt16 RTPExtension) :=
  if _h : pos + extensionHeaderLength profile < capacity then do
    let b ← byte (offset + pos)
    if b = kPaddingByte then
      extensionLoop profile offset capacity exts (pos + 1)
    else if profile = kOneByteExtensionProfileId then
      let id := b >>> 4
      let length : UInt8 := 1 + (b &&& 0xf)
      -- The recorded place does not depend on `pos`. The map is written before the checks.
      let exts := exts.insert id.toUInt16 ⟨id, length, offset + 1⟩
      if id = kOneByteHeaderExtensionReservedId ∨ (id = kPaddingId ∧ length ≠ 1) then
        return exts
      else if pos + extensionHeaderLength profile + length.toNat > capacity then
        return exts
      else
        extensionLoop profile offset capacity exts
          (pos + (extensionHeaderLength profile + length.toNat))
    else
      let id := b
      let length ← byte (offset + pos + 1)
      let exts := exts.insert id.toUInt16 ⟨id, length, offset + 2⟩
      if pos + extensionHeaderLength profile + length.toNat > capacity then
        return exts
      else
        extensionLoop profile offset capacity exts
          (pos + (extensionHeaderLength profile + length.toNat))
  else return exts
termination_by capacity - pos
decreasing_by
  all_goals have hp := extensionHeaderLength_pos profile; omega

def recordExtensions (profile : UInt16) (offset capacity : ℕ)
    (exts : Std.ExtTreeMap UInt16 RTPExtension) : Read (Std.ExtTreeMap UInt16 RTPExtension) :=
  if profile ≠ kOneByteExtensionProfileId ∧ profile ≠ kTwoByteExtensionProfileId then
    return exts
  else
    extensionLoop profile offset capacity exts 0

def readPaddingSize (hasPadding : Bool) (size : ℕ) : Read UInt8 :=
  if hasPadding then byte (size - 1) else return 0

namespace RTPPacket

def finish (p : RTPPacket) (size : ℕ) : Bool × RTPPacket :=
  if p.payloadOffset + p.paddingSize > size then (false, p)
  else (true, { p with payloadSize := size - p.payloadOffset - p.paddingSize })

def parseExtension (p : RTPPacket) (size : ℕ) : Read (Bool × RTPPacket) := do
  let extensionOffset := p.payloadOffset + 4
  if extensionOffset > size then
    return (false, p)
  let profile ← readBE16 p.payloadOffset
  let words ← readBE16 (p.payloadOffset + 2)
  let extensionsCapacity := words.toNat * 4
  if extensionOffset + extensionsCapacity > size then
    return (false, p)
  let exts ← recordExtensions profile extensionOffset extensionsCapacity p.exts
  return finish
    { p with exts := exts, payloadOffset := extensionOffset + extensionsCapacity } size

/-- `RTPPacket::Parse`. Its first three exits return `-1`, the later ones `false`. -/
def parse (p : RTPPacket) (data size : ℕ) : Read (Bool × RTPPacket) := do
  let p := { p with data := data, size := size }
  if size < kFixedHeaderSize then
    return (boolOfInt (-1), p)
  let b₀ ← byte 0
  let version := b₀ >>> 6
  if version ≠ kRtpVersion then
    return (boolOfInt (-1), p)
  let hasPadding : Bool := b₀ &&& 0x20 ≠ 0
  let hasExt : Bool := b₀ &&& 0x10 ≠ 0
  let numberCC := b₀ &&& 0x0f
  let b₁ ← byte 1
  let seqNum ← readBE16 2
  let timestamp ← readBE32 4
  let ssrc ← readBE32 8
  let p := { p with
    maker := b₁ &&& 0x80 ≠ 0
    payloadType := b₁ &&& 0x7f
    seqNum := seqNum
    timestamp := timestamp
    ssrc := ssrc }
  if size < kFixedHeaderSize + numberCC.toNat * 4 then
    return (boolOfInt (-1), p)
  let p := { p with payloadOffset := kFixedHeaderSize + numberCC.toNat * 4 }
  let paddingSize ← readPaddingSize hasPadding size
  let p := { p with paddingSize := paddingSize.toNat }
  if hasPadding ∧ paddingSize = 0 then
    return (false, p)
  if hasExt then
    parseExtension p size
  else
    return finish p size

/-- `RTPPacket::Serialize`. The first byte has the version 0 and the extension flag, and no
SSRC is written. -/
def serialize (p : RTPPacket) (_exts : List RTPExtension) (session : RTPSession) :
    Read (Buffer × ℕ) := do
  let len := 8 + p.payloadSize
  let buffer := write malloc 0 [0x10]
  let buffer := write buffer 1 [(if p.maker then (1 : UInt8) else 0) <<< 7 ||| session.pt]
  let buffer := write buffer 2 (writeBE16 session.seq)
  let buffer := write buffer 4 (writeBE32 p.timestamp)
  let payload ← block p.payloadOffset p.payloadSize
  return (write buffer 8 payload, len)

theorem finish_data (p : RTPPacket) (size : ℕ) :
    (p.finish size).2.data = p.data ∧ (p.finish size).2.size = p.size := by
  unfold finish
  split <;> exact ⟨rfl, rfl⟩

theorem parseExtension_data (p : RTPPacket) (size : ℕ) (m : Memory) :
    ((p.parseExtension size).value m).2.data = p.data ∧
      ((p.parseExtension size).value m).2.size = p.size := by
  simp only [parseExtension, value_ite, value_bind, value_pure]
  split
  · exact ⟨rfl, rfl⟩
  · split
    · exact ⟨rfl, rfl⟩
    · exact finish_data _ _

theorem parse_data (p : RTPPacket) (data size : ℕ) (m : Memory) :
    ((p.parse data size).value m).2.data = data ∧ ((p.parse data size).value m).2.size = size := by
  simp only [parse, value_ite, value_bind, value_pure]
  repeat' split
  any_goals exact ⟨rfl, rfl⟩
  · exact parseExtension_data _ _ _
  · exact finish_data _ _

end RTPPacket

end Spadia.Rtp.Packet
