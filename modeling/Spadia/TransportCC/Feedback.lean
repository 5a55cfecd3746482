import Std.Data.ExtTreeMap
import Mathlib.Tactic.Common
import Spadia.Foundation.ByteBuffer
import Spadia.Wire.ByteOrder

namespace Spadia.TransportCC.Feedback

open Foundation.TracedRead Read Foundation.ByteBuffer Wire.ByteOrder

inductive PacketStatus
  | notReceived
  | smallDelta
  | largeOrNegativeDelta
  | reserved
deriving DecidableEq, Repr

namespace PacketStatus

def code : PacketStatus → ℕ
  | notReceived => 0
  | smallDelta => 1
  | largeOrNegativeDelta => 2
  | reserved => 3

def ofCode (n : ℕ) : PacketStatus :=
  if n = 0 then notReceived
  else if n = 1 then smallDelta
  else if n = 2 then largeOrNegativeDelta
  else reserved

end PacketStatus

structure TransportCCFeedBack where
  feedbackPacketCount : UInt8
  referenceTime : UInt32 := 0
  packets : Std.ExtTreeMap UInt32 UInt64 := ∅

def int32 (x : ℤ) : ℤ := (x + 2 ^ 31) % 2 ^ 32 - 2 ^ 31

/-- The conversion of an integer to a 16-bit `short`. -/
def int16 (x : ℤ) : ℤ := (x + 2 ^ 15) % 2 ^ 16 - 2 ^ 15

/-- The locals of the first loop of `Serialize`, with the output buffer. -/
structure Scan where
  firstReceived : Bool
  time : ℕ
  deltas : List ℤ
  statuses : List PacketStatus
  buffer : Buffer
  len : ℕ

def deltaTo (time t : ℕ) : ℤ :=
  if t > time then int32 ((t - time) / 250 : ℕ)
  else int32 (-int32 ((time - t) / 250 : ℕ))

def statusOf (delta : ℤ) : PacketStatus :=
  if delta < 0 ∨ delta > 127 then .largeOrNegativeDelta else .smallDelta

/-- The first received packet fixes the reference time. It writes the word at offset 4 and
a 16-bit feedback count at offset 7. -/
def Scan.start (s : Scan) (data : ℕ) (count : UInt8) (t : ℕ) : Scan :=
  let referenceTime := (t / 64000) &&& 0x7FFFFF
  { s with
    firstReceived := true
    time := referenceTime * 64000
    buffer := write (write s.buffer (data + 4) (writeBE32 (UInt32.ofNat (referenceTime <<< 8))))
      (data + 7) (writeBE16 count.toUInt16)
    len := s.len + 4 }

def Scan.step (data : ℕ) (count : UInt8) (s : Scan) (entry : UInt32 × UInt64) : Scan :=
  if entry.2 = 0 then { s with statuses := s.statuses ++ [.notReceived] }
  else
    let s := if s.firstReceived then s else s.start data count entry.2.toNat
    let delta := deltaTo s.time entry.2.toNat
    { s with
      deltas := s.deltas ++ [delta]
      statuses := s.statuses ++ [statusOf delta]
      time := ((s.time + int32 (delta * 250)) % 2 ^ 64).toNat }

/-- Seven two-bit symbols or fewer after the flags of a two-bit status vector. -/
def chunkWord (l : List PacketStatus) : UInt16 :=
  l.zipIdx.foldl (fun chunk e ↦ chunk ||| UInt16.ofNat (e.1.code <<< (12 - 2 * e.2))) 0xC000

def writeChunks (statuses : List PacketStatus) (data i : ℕ) (buffer : Buffer) (len : ℕ) :
    Buffer × ℕ :=
  if i < statuses.length then
    writeChunks statuses data (i + 7)
      (write buffer (data + len) (writeBE16 (chunkWord ((statuses.drop i).take 7)))) (len + 2)
  else (buffer, len)
termination_by statuses.length - i

def writeDelta (data : ℕ) (out : Buffer × ℕ) (delta : ℤ) : Buffer × ℕ :=
  if delta < 0 ∨ delta > 127 then
    (write out.1 (data + out.2) (writeBE16 (UInt16.ofInt (int16 delta))), out.2 + 2)
  else (write out.1 (data + out.2) [UInt8.ofInt delta], out.2 + 1)

/-- `while (len % 4) data[len++] = 0;` -/
def writePadding (data : ℕ) (buffer : Buffer) (len : ℕ) : Buffer × ℕ :=
  if len % 4 ≠ 0 then writePadding data (write buffer (data + len) [0]) (len + 1)
  else (buffer, len)
termination_by (4 - len % 4) % 4

namespace TransportCCFeedBack

def insertPacket (fb : TransportCCFeedBack) (transportNum : UInt32) (timeUS : UInt64) :
    TransportCCFeedBack :=
  { fb with packets := fb.packets.insert transportNum timeUS }

def scanInit (fb : TransportCCFeedBack) (buffer : Buffer) (data : ℕ) : Scan where
  firstReceived := false
  time := 0
  deltas := []
  statuses := []
  buffer := write (write buffer data
      (writeBE16 (fb.packets.toList.head?.elim 0 fun e ↦ e.1.toUInt16)))
    (data + 2) (writeBE16 (UInt16.ofNat fb.packets.size))
  len := 4

def scan (fb : TransportCCFeedBack) (buffer : Buffer) (data : ℕ) : Scan :=
  fb.packets.toList.foldl (Scan.step data fb.feedbackPacketCount) (fb.scanInit buffer data)

/-- `TransportCCFeedBack::Serialize` into `buffer` at `data`: the buffer and the length. -/
def serialize (fb : TransportCCFeedBack) (buffer : Buffer) (data : ℕ) : Buffer × ℕ :=
  if fb.packets.isEmpty then (buffer, 0)
  else
    let s := fb.scan buffer data
    let out := writeChunks s.statuses data 0 s.buffer s.len
    let out := s.deltas.foldl (writeDelta data) out
    writePadding data out.1 out.2

end TransportCCFeedBack

def chunkSymbols (chunk : UInt16) : List PacketStatus :=
  if chunk >>> 15 ≠ 0 then
    if chunk >>> 14 &&& 1 ≠ 0 then
      (List.range 7).map fun j ↦ .ofCode (chunk.toNat >>> (12 - 2 * j) &&& 0x03)
    else (List.range 14).map fun j ↦ .ofCode (chunk.toNat >>> (13 - j) &&& 0x01)
  else List.replicate (chunk &&& 0x1FFF).toNat (.ofCode (chunk >>> 13).toNat)

/-- The chunk loop of `Parse`; `none` where it returns at the end of the buffer. -/
def statusLoop (data : ℕ) (size : ℤ) (count : ℕ) (statuses : List PacketStatus) (len : ℕ) :
    Read (Option (List PacketStatus × ℕ)) :=
  if statuses.length < count then
    if _h : len + 2 > size then return none
    else do
      let chunk ← readBE16 (data + len)
      statusLoop data size count (statuses ++ chunkSymbols chunk) (len + 2)
  else return some (statuses, len)
termination_by (size - len).toNat

def readShort (data : ℕ) : Read ℤ := do
  let word ← readBE16 data
  return int16 word.toNat

/-- The delta loop of `Parse` at index `i`. A delta that the buffer cuts off ends it. -/
def timeLoop (data : ℕ) (size : ℤ) (base : UInt32) (count : ℕ) (statuses : List PacketStatus)
    (i len : ℕ) (time : UInt64) (packets : Std.ExtTreeMap UInt32 UInt64) :
    Read (Std.ExtTreeMap UInt32 UInt64) :=
  if i < count then
    match statuses[i]? with
    | none => return packets
    | some .notReceived =>
      timeLoop data size base count statuses (i + 1) len time
        (packets.insert (base + UInt32.ofNat i) 0)
    | some .smallDelta =>
      if len + 1 > size then return packets
      else do
        let delta ← readBE8 (data + len)
        let time := time + UInt64.ofNat (delta.toNat * 250)
        timeLoop data size base count statuses (i + 1) (len + 1) time
          (packets.insert (base + UInt32.ofNat i) time)
    | some .largeOrNegativeDelta =>
      if len + 2 > size then return packets
      else do
        let aux ← readShort (data + len)
        let time := time + UInt64.ofInt (aux * 250)
        timeLoop data size base count statuses (i + 1) (len + 2) time
          (packets.insert (base + UInt32.ofNat i) time)
    | some .reserved => timeLoop data size base count statuses (i + 1) len time packets
  else return packets
termination_by count - i

/-- `TransportCCFeedBack::Parse`. The base number is read as a 32-bit word, and the
reference time keeps its place in the upper three bytes. -/
def TransportCCFeedBack.parse (fb : TransportCCFeedBack) (data : ℕ) (size : ℤ) :
    Read TransportCCFeedBack := do
  if size < 8 then
    return fb
  let baseSeqNumber ← readBE32 data
  let packetStatusCount ← readBE16 (data + 2)
  let word ← readBE32 (data + 4)
  let feedbackPacketCount ← readBE8 (data + 7)
  let referenceTime := word &&& 0xFFFFFF00
  let fb := { fb with referenceTime, feedbackPacketCount }
  let statuses ← statusLoop data size packetStatusCount.toNat [] 8
  match statuses with
  | none => return fb
  | some (statuses, len) =>
    let time := (referenceTime * 64000).toUInt64
    let packets ← timeLoop data size baseSeqNumber packetStatusCount.toNat statuses 0 len time
      fb.packets
    return { fb with packets }

end Spadia.TransportCC.Feedback
