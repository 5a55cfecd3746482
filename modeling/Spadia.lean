import Spadia.Foundation.TracedRead
import Spadia.Foundation.ByteBuffer
import Spadia.Foundation.ByteWord
import Spadia.Wire.ByteOrder
import Spadia.Wire.ByteIO
import Spadia.Rtp.Packet
import Spadia.Rtp.Grammar
import Spadia.Rtp.Extensions
import Spadia.Rtp.Serialized
import Spadia.Rtp.Bounds
import Spadia.Rtp.Recorded
import Spadia.Rtp.Layout
import Spadia.Rtcp.Compound
import Spadia.Rtcp.Framing
import Spadia.Rtcp.Composition
import Spadia.Rtcp.CommonHeader
import Spadia.Rtcp.ReceiverDecoding
import Spadia.Rtcp.ReportBlock
import Spadia.Rtcp.NtpTime
import Spadia.Rtcp.ReportDelay
import Spadia.Foundation.DeltaClock
import Spadia.TransportCC.Feedback
import Spadia.TransportCC.DraftLayout
import Spadia.TransportCC.Encoding
import Spadia.TransportCC.Serialized
import Spadia.TransportCC.Decoding
import Spadia.TransportCC.Header
import Spadia.TransportCC.Gaps
import Spadia.TransportCC.Wrap
import Spadia.TransportCC.DeltaRange
import Spadia.TransportCC.Offset
import Spadia.TransportCC.ChunkReading
import Spadia.Rtcp.FeedbackDecoding
import Spadia.Rtcp.FeedbackFraming
import Spadia.TransportCC.Shifted
import Spadia.Foundation.SlidingWindow
import Spadia.Session.LostSession
import Spadia.Session.LossWindow
import Spadia.Session.LossAge
import Spadia.Session.LossCounter
import Spadia.Session.EmptyMarker
import Spadia.Foundation.ReflectedCrc
import Spadia.Stun.Crc32
import Spadia.Stun.Checksum
import Spadia.Stun.Burst
import Spadia.Stun.Packet
import Spadia.Stun.Attributes
import Spadia.Stun.Reply
import Spadia.Stun.MessageType
import Spadia.Peer.Connection
import Spadia.Peer.StunPath
import Spadia.Peer.MediaPath
import Spadia.Peer.Answer
import Spadia.Peer.Negotiation
import Spadia.Peer.Publishing
import Spadia.Peer.FeedbackPath
import Spadia.Foundation.KeyedTable
import Spadia.Server.PcTable
import Spadia.Server.EntryPoints
import Spadia.Server.Ports
import Spadia.Server.Registry
import Spadia.Foundation.LabelledRun
import Spadia.Media.Fanout
import Spadia.System.Network
import Spadia.System.BufferLedger
import Spadia.System.StunExchange
import Spadia.System.Viewers
import Spadia.System.Forwarding
import Spadia.System.Survival
import Spadia.System.Signalling
import Spadia.System.Broadcast
import Spadia.System.Addressing
import Spadia.System.Relay
import Spadia.System.Service
