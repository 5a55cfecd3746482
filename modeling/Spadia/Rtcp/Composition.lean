import Spadia.Rtcp.Compound
import Spadia.Rtcp.Framing

namespace Spadia.Rtcp.Composition

open Foundation TracedRead Read ByteBuffer Wire.ByteOrder Reports Compound
open Framing

/-- A sub-packet of whole words that declares its own length. A sender report has its 28
bytes. -/
structure Part where
  first : UInt8
  type : UInt8
  words : UInt16
  body : List UInt8
  length_body : body.length = 4 * words.toNat
  complete : type = senderReport → 6 ≤ words.toNat

def word (l : List UInt8) (i : ℕ) : UInt32 :=
  be32 (l.getD i 0) (l.getD (i + 1) 0) (l.getD (i + 2) 0) (l.getD (i + 3) 0)

namespace Part

def bytes (p : Part) : List UInt8 := [p.first, p.type] ++ writeBE16 p.words ++ p.body

/-- One object for a report and none for anything else. The fields of a sender report are
the six words at the offsets 4 to 27. -/
def objects (raw : UInt32) (p : Part) : List RTCPPacketInterface :=
  if p.type = senderReport then
    [.sendReport
      { ssrc := word p.bytes 4
        ntpSec := word p.bytes 8
        ntpFrac := word p.bytes 12
        rtpTimestamp := word p.bytes 16
        packetsSent := word p.bytes 20
        octectsSent := word p.bytes 24 }]
  else if p.type = receiverReport then [.receiverReport { ssrc := raw }]
  else []

theorem length_bytes (p : Part) : p.bytes.length = 4 + 4 * p.words.toNat := by
  simp [bytes, p.length_body]
  omega

end Part

variable {raw : UInt32} {m : Memory}

theorem Stores.word {i : ℕ} {l : List UInt8} (h : Stores m i l) {j : ℕ} (hj : j + 3 < l.length) :
    be32 (m (i + j)) (m (i + j + 1)) (m (i + j + 2)) (m (i + j + 3)) = word l j := by
  have hbyte (k : ℕ) (hk : k < l.length) : m (i + k) = l.getD k 0 := by
    rw [h.getElem hk, List.getD_eq_getElem _ _ hk]
  rw [Composition.word, ← hbyte j (by omega), ← hbyte (j + 1) (by omega),
    ← hbyte (j + 2) (by omega), ← hbyte (j + 3) (by omega)]
  rfl

/-- The walk is never stopped by the 16-bit header length, whatever it has wrapped to. -/
theorem sendReport_value (s : SubPacket) :
    (SendReportPacket.parse s.start (s.declared m)).value m =
      { ssrc := (readBE32 (s.start + 4)).value m
        ntpSec := (readBE32 (s.start + 8)).value m
        ntpFrac := (readBE32 (s.start + 12)).value m
        rtpTimestamp := (readBE32 (s.start + 16)).value m
        packetsSent := (readBE32 (s.start + 20)).value m
        octectsSent := (readBE32 (s.start + 24)).value m } := by
  have hd := declared_bounds (m := m) s
  have hsize : 4 ≤ (UInt32.ofInt (s.declared m)).toNat := by rw [ofInt_toNat hd.2]; exact hd.1
  have hlength : ¬ ((s.declared m : ℤ) < (RTCPCommonHeader.at m s.start).length.toNat) := by
    have h := header_length_le (m := m) s
    omega
  simp only [SendReportPacket.parse, value_bind, parse_header_value hsize, hlength, if_false,
    value_pure, rtcpCommonHeaderSize, Nat.add_assoc, Nat.reduceAdd]

variable {p : Part} {data : ℕ}

theorem packetType_part (h : Stores m data p.bytes) (len : ℤ) :
    SubPacket.packetType m ⟨data, len⟩ = p.type := by
  simp only [Part.bytes, List.cons_append, List.nil_append, stores_cons] at h
  exact h.2.1

theorem declared_part (h : Stores m data p.bytes) (len : ℤ) :
    SubPacket.declared m ⟨data, len⟩ = p.bytes.length := by
  simp only [Part.bytes, writeBE16, List.cons_append, List.nil_append, stores_cons,
    Nat.add_assoc, Nat.reduceAdd] at h
  rw [SubPacket.declared, h.2.2.1, h.2.2.2.1, be16_writeBE16, p.length_bytes]

theorem objects_part (h : Stores m data p.bytes) (len : ℤ) :
    SubPacket.objects raw m ⟨data, len⟩ = p.objects raw := by
  rw [SubPacket.objects, packetType_part h, construct, Part.objects]
  split
  case isTrue htype =>
    have hlong := p.complete htype
    have hword (j : ℕ) (hj : j ≤ 24) : (readBE32 (data + j)).value m = word p.bytes j := by
      rw [value_readBE32]
      exact Stores.word h (by rw [p.length_bytes]; omega)
    have hvalue := sendReport_value (m := m) ⟨data, len⟩
    rw [hword 4 (by decide), hword 8 (by decide), hword 12 (by decide), hword 16 (by decide),
      hword 20 (by decide), hword 24 (by decide)] at hvalue
    rw [value_bind, hvalue]
    rfl
  case isFalse =>
    rw [value_ite]
    rfl

/-- The walk by declared lengths meets every part, in order, and stops at the stray bytes. -/
theorem parseLoop_parts (parts : List Part) {stray : List UInt8} (hstray : stray.length ≤ 3)
    (h : Stores m data (parts.flatMap Part.bytes ++ stray)) (cnt : ℕ)
    (output : List RTCPPacketInterface) :
    (parseLoop raw data (parts.flatMap Part.bytes ++ stray).length cnt output).value m =
      (cnt + parts.length, output ++ parts.flatMap (Part.objects raw)) := by
  rw [parseLoop_value]
  suffices hwalk : (subPackets m data (parts.flatMap Part.bytes ++ stray).length).map
      (fun s ↦ SubPacket.objects raw m s) = parts.map (Part.objects raw) by
    have hlen := congrArg List.length hwalk
    rw [List.length_map, List.length_map] at hlen
    rw [hlen, List.flatMap_def, hwalk, ← List.flatMap_def]
  induction parts generalizing data with
  | nil =>
    rw [List.flatMap_nil, List.nil_append, subPackets, dif_neg (by omega)]
    rfl
  | cons p parts ih =>
    rw [List.flatMap_cons, List.append_assoc] at h ⊢
    obtain ⟨hp, hrest⟩ := (stores_append _ _ _ _).mp h
    have hlength := p.length_bytes
    rw [List.length_append, subPackets, dif_pos (by omega), List.map_cons, List.map_cons,
      objects_part hp, declared_part hp]
    congr 1
    have hremaining : ((p.bytes.length + (parts.flatMap Part.bytes ++ stray).length : ℕ) : ℤ) -
        p.bytes.length = (parts.flatMap Part.bytes ++ stray).length := by omega
    rw [hremaining]
    exact ih hrest

def image (sr : SendReportPacket) : List UInt8 := written (.sendReport sr)

/-- A sender report without blocks as a sub-packet. -/
def partOf (sr : SendReportPacket) : Part where
  first := 0x80
  type := senderReport
  words := 6
  body := writeBE32 sr.ssrc ++ writeBE32 sr.ntpSec ++ writeBE32 sr.ntpFrac ++
    writeBE32 sr.rtpTimestamp ++ writeBE32 sr.packetsSent ++ writeBE32 sr.octectsSent
  length_body := rfl
  complete _ := by decide

theorem image_eq {sr : SendReportPacket} (h : sr.reports = []) : image sr = (partOf sr).bytes := by
  have hwritten : written (.sendReport sr) = sendReportBytes sr :=
    written_eq (sendReport_serialize sr)
  rw [image, hwritten, sendReportBytes, h]
  rfl

theorem objects_partOf {sr : SendReportPacket} (h : sr.reports = []) :
    (partOf sr).objects raw = [.sendReport sr] := by
  have hobjects : (partOf sr).objects raw = [.sendReport { sr with reports := [] }] := by
    rw [Part.objects, if_pos (show (partOf sr).type = senderReport from rfl)]
    simp only [word, partOf, Part.bytes, writeBE16, writeBE32, List.cons_append, List.nil_append,
      List.getD_cons_succ, List.getD_cons_zero, be32_writeBE32]
  rw [hobjects, ← h]

theorem flatMap_partOf (raw : UInt32) (srs : List SendReportPacket)
    (h : ∀ sr ∈ srs, sr.reports = []) :
    srs.flatMap image = (srs.map partOf).flatMap Part.bytes ∧
      (srs.map partOf).flatMap (Part.objects raw) = srs.map .sendReport := by
  induction srs with
  | nil => exact ⟨rfl, rfl⟩
  | cons sr srs ih =>
    rw [List.forall_mem_cons] at h
    obtain ⟨hbytes, hobjects⟩ := ih h.2
    constructor
    · rw [List.flatMap_cons, List.map_cons, List.flatMap_cons, image_eq h.1, hbytes]
    · rw [List.map_cons, List.flatMap_cons, objects_partOf h.1, hobjects]
      rfl

theorem parse_compositional (raw : UInt32) (data : ℕ) (output : List RTCPPacketInterface) :
    (∀ (parts : List Part) (stray : List UInt8) (m : Memory), stray.length ≤ 3 →
      Stores m data (parts.flatMap Part.bytes ++ stray) →
      (parseLoop raw data (parts.flatMap Part.bytes ++ stray).length 0 output).value m =
        (parts.length, output ++ parts.flatMap (Part.objects raw))) ∧
    ∀ (srs : List SendReportPacket) (m : Memory), (∀ sr ∈ srs, sr.reports = []) →
      Stores m data (srs.flatMap image) →
      (parseLoop raw data (srs.flatMap image).length 0 output).value m =
        (srs.length, output ++ srs.map .sendReport) := by
  constructor
  · intro parts stray m hstray h
    rw [parseLoop_parts parts hstray h, Nat.zero_add]
  · intro srs m hreports h
    obtain ⟨hbytes, hobjects⟩ := flatMap_partOf raw srs hreports
    rw [hbytes, ← List.append_nil ((srs.map partOf).flatMap Part.bytes)] at h ⊢
    have hstray : ([] : List UInt8).length ≤ 3 := by decide
    rw [parseLoop_parts (srs.map partOf) hstray h, Nat.zero_add, List.length_map, hobjects]

/-- A receiver report, a goodbye and a sender report, then two stray bytes. -/
def mixed : List Part :=
  [⟨0x80, 201, 1, [0, 0, 0, 9], rfl, by decide⟩, ⟨0x80, 203, 0, [], rfl, by decide⟩,
    partOf { ssrc := 7, ntpSec := 1, ntpFrac := 2, rtpTimestamp := 3, packetsSent := 4 }]

theorem mixed_decodes : Stores (ofList (mixed.flatMap Part.bytes ++ [0, 0])) 0
      (mixed.flatMap Part.bytes ++ [0, 0]) ∧
    (parseLoop 5 0 (mixed.flatMap Part.bytes ++ [0, 0]).length 0 []).value
      (ofList (mixed.flatMap Part.bytes ++ [0, 0])) = (3, mixed.flatMap (Part.objects 5)) := by
  have h : Stores (ofList (mixed.flatMap Part.bytes ++ [0, 0])) 0
      (mixed.flatMap Part.bytes ++ [0, 0]) := by decide
  exact ⟨h, (parse_compositional 5 0 []).1 mixed [0, 0] _ (by decide) h⟩

end Spadia.Rtcp.Composition
