import Mathlib.Tactic.Common
import Mathlib.Data.List.Basic
import Spadia.Foundation.ByteBuffer
import Spadia.Wire.ByteOrder

namespace Spadia.Rtcp.Reports

open Foundation.TracedRead Read Foundation.ByteBuffer Wire.ByteOrder

def rtcpCommonHeaderSize : ℕ := 4
def senderReportSize : ℕ := 24
def receiverReportSize : ℕ := 24

def senderReport : UInt8 := 200
def receiverReport : UInt8 := 201

structure RTCPCommonHeader where
  count : UInt8 := 0
  padding : Bool := false
  version : UInt8 := 2
  packetType : UInt8 := 0
  length : UInt16 := 0
deriving DecidableEq, Repr

/-- The number of header bytes, or `none` where the source returns zero. The length is in
bytes and keeps 16 bits only. -/
def RTCPCommonHeader.parse (data : ℕ) (size : UInt32) : Read (Option RTCPCommonHeader) := do
  if size.toNat < rtcpCommonHeaderSize then
    return none
  let b₀ ← byte data
  let b₁ ← byte (data + 1)
  let words ← readBE16 (data + 2)
  return some {
    version := b₀ >>> 6
    padding := (b₀ >>> 4) &&& 0x01 ≠ 0
    count := b₀ &&& 0x1F
    packetType := b₁
    length := UInt16.ofNat ((words.toNat + 1) <<< 2) }

def RTCPCommonHeader.serialize (h : RTCPCommonHeader) : List UInt8 :=
  [(if h.padding then 0xA0 else 0x80) ||| (h.count &&& 0x1F), h.packetType] ++
    writeBE16 (h.length >>> 2 - 1)

def RTCPCommonHeader.at (m : Memory) (data : ℕ) : RTCPCommonHeader where
  version := m data >>> 6
  padding := (m data >>> 4) &&& 0x01 ≠ 0
  count := m data &&& 0x1F
  packetType := m (data + 1)
  length := UInt16.ofNat (((be16 (m (data + 2)) (m (data + 3))).toNat + 1) <<< 2)

theorem parse_header_value {m : Memory} {data : ℕ} {size : UInt32} (h : 4 ≤ size.toNat) :
    (RTCPCommonHeader.parse data size).value m = some (RTCPCommonHeader.at m data) := by
  have h' : ¬ size.toNat < rtcpCommonHeaderSize := Nat.not_lt.mpr h
  simp only [RTCPCommonHeader.parse, h', if_false, value_bind, value_byte, value_readBE16]
  rfl

theorem parse_header_inside {m : Memory} {n data : ℕ} {size : UInt32} (h : 4 ≤ size.toNat) :
    Inside n (RTCPCommonHeader.parse data size) m ↔ data + 3 < n := by
  have h' : ¬ size.toNat < rtcpCommonHeaderSize := Nat.not_lt.mpr h
  simp only [RTCPCommonHeader.parse, h', if_false, inside_bind, inside_byte, inside_readBE16,
    inside_pure, and_true]
  omega

/-- The 24 raw bytes of a report block. -/
structure RTCPReceiverReportBlock where
  buffer : Vector UInt8 24 := Vector.replicate 24 0
deriving DecidableEq, Repr

def RTCPReceiverReportBlock.serialize (block : RTCPReceiverReportBlock) (buffer : Buffer)
    (data size : ℕ) : Buffer × ℕ :=
  if size < 24 then (buffer, 0) else (write buffer data block.buffer.toList, 24)

/-- The block after `Parse` and the number of bytes it took. -/
def RTCPReceiverReportBlock.parse (block : RTCPReceiverReportBlock) (data : ℕ) (size : UInt32) :
    Read (RTCPReceiverReportBlock × UInt32) := do
  if size < 24 then
    return (block, 0)
  let buffer ← array data 24
  return ({ buffer }, 24)

structure SendReportPacket where
  ssrc : UInt32 := 0
  ntpSec : UInt32 := 0
  ntpFrac : UInt32 := 0
  rtpTimestamp : UInt32 := 0
  packetsSent : UInt32 := 0
  octectsSent : UInt32 := 0
  reports : List RTCPReceiverReportBlock := []
deriving DecidableEq, Repr

/-- `SendReportPacket::Parse`, run by the constructor on an object of zeros. -/
def SendReportPacket.parse (data : ℕ) (size : ℤ) : Read SendReportPacket := do
  let header ← RTCPCommonHeader.parse data (UInt32.ofInt size)
  match header with
  | none => return {}
  | some header =>
    let packetSize := header.length.toNat
    if size < packetSize then
      return {}
    let len := rtcpCommonHeaderSize
    let ssrc ← readBE32 (data + len)
    let ntpSec ← readBE32 (data + len + 4)
    let ntpFrac ← readBE32 (data + len + 8)
    let rtpTimestamp ← readBE32 (data + len + 12)
    let packetsSent ← readBE32 (data + len + 16)
    let octectsSent ← readBE32 (data + len + 20)
    return { ssrc, ntpSec, ntpFrac, rtpTimestamp, packetsSent, octectsSent }

/-- `SendReportPacket::Serialize`. The report blocks are counted and not written. -/
def SendReportPacket.serialize (p : SendReportPacket) : Buffer × ℕ :=
  let header : RTCPCommonHeader :=
    { count := UInt8.ofNat p.reports.length
      packetType := senderReport
      padding := false
      length := UInt16.ofNat (rtcpCommonHeaderSize + senderReportSize) }
  let len := rtcpCommonHeaderSize
  let buffer := write malloc 0 header.serialize
  let buffer := write buffer len (writeBE32 p.ssrc)
  let buffer := write buffer (len + 4) (writeBE32 p.ntpSec)
  let buffer := write buffer (len + 8) (writeBE32 p.ntpFrac)
  let buffer := write buffer (len + 12) (writeBE32 p.rtpTimestamp)
  let buffer := write buffer (len + 16) (writeBE32 p.packetsSent)
  let buffer := write buffer (len + 20) (writeBE32 p.octectsSent)
  (buffer, len + 24)

structure ReceiverReportPacket where
  ssrc : UInt32
  reports : List RTCPReceiverReportBlock := []
deriving DecidableEq, Repr

/-- The constructor from received bytes has an empty body, so the sender's number is what
`raw` says was in memory. -/
def ReceiverReportPacket.create (raw : UInt32) (_data : ℕ) (_size : ℤ) :
    Read ReceiverReportPacket :=
  return { ssrc := raw }

/-- The loop of `ReceiverReportPacket::Parse` over the blocks, for `count` more rounds. -/
def parseBlocks (data : ℕ) (size : ℤ) : ℕ → UInt32 → Read (List RTCPReceiverReportBlock)
  | 0, _ => return []
  | count + 1, len => do
    if (len + 24).toNat ≤ size then
      let report ← RTCPReceiverReportBlock.parse {} (data + len.toNat)
        (UInt32.ofInt (size - len.toNat))
      let reports ← parseBlocks data size count (len + report.2)
      return report.1 :: reports
    else return []

/-- `ReceiverReportPacket::Parse`, which the constructor does not run. -/
def ReceiverReportPacket.parse (p : ReceiverReportPacket) (data : ℕ) (size : ℤ) :
    Read ReceiverReportPacket := do
  let header ← RTCPCommonHeader.parse data (UInt32.ofInt size)
  match header with
  | none => return p
  | some header =>
    let packetSize := header.length.toNat
    if size < packetSize then
      return p
    let len : UInt32 := 4
    let ssrc ← readBE32 (data + len.toNat)
    let reports ← parseBlocks data size header.count.toNat (len + 4)
    return { ssrc, reports := p.reports ++ reports }

/-- One round of the loop over the blocks. -/
def writeBlock (packetSize : ℕ) (out : Buffer × ℕ) (block : RTCPReceiverReportBlock) :
    Buffer × ℕ :=
  let written := block.serialize out.1 out.2 (packetSize - out.2)
  (written.1, out.2 + written.2)

/-- `ReceiverReportPacket::Serialize`. The packet size has room for a single block. -/
def ReceiverReportPacket.serialize (p : ReceiverReportPacket) : Buffer × ℕ :=
  let packetSize := rtcpCommonHeaderSize + 4 + receiverReportSize
  let header : RTCPCommonHeader :=
    { count := UInt8.ofNat p.reports.length
      packetType := receiverReport
      padding := false
      length := UInt16.ofNat packetSize }
  let buffer := write malloc 0 header.serialize
  let buffer := write buffer rtcpCommonHeaderSize (writeBE32 p.ssrc)
  (p.reports.take header.count.toNat).foldl (writeBlock packetSize)
    (buffer, rtcpCommonHeaderSize + 4)

inductive RTCPPacketInterface
  | sendReport (p : SendReportPacket)
  | receiverReport (p : ReceiverReportPacket)
deriving DecidableEq, Repr

end Spadia.Rtcp.Reports
