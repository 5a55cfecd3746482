import Spadia.Rtp.Serialized

namespace Spadia.Rtp.Layout

open Foundation.TracedRead Read Wire.ByteOrder Packet Grammar

/-- A header extension of `words` 32-bit words, whatever they hold. -/
structure ExtensionBlock where
  profile : UInt16
  words : ℕ
  content : List UInt8
  words_lt : words < 65536
  length_content : content.length = 4 * words

def ExtensionBlock.encode (e : ExtensionBlock) : List UInt8 :=
  writeBE16 e.profile ++ writeBE16 (UInt16.ofNat e.words) ++ e.content

theorem ExtensionBlock.length_encode (e : ExtensionBlock) : e.encode.length = 4 + 4 * e.words := by
  simp [ExtensionBlock.encode, e.length_content]
  omega

/-- The padding in front of its last byte, which counts all of it. -/
structure Padding where
  filler : List UInt8
  length_lt : filler.length < 255

def Padding.size (p : Padding) : ℕ := p.filler.length + 1

def Padding.encode (p : Padding) : List UInt8 := p.filler ++ [UInt8.ofNat p.size]

/-- The parts of an RTP packet, in the order of the packet diagram. -/
structure Parts where
  marker : Bool
  payloadType : UInt8
  seqNum : UInt16
  timestamp : UInt32
  ssrc : UInt32
  csrcs : List UInt32
  extension : Option ExtensionBlock
  payload : List UInt8
  padding : Option Padding
  payloadType_lt : payloadType.toNat < 128
  length_csrcs : csrcs.length ≤ 15

namespace Parts

def firstByte (x : Parts) : UInt8 :=
  0x80 ||| (if x.padding.isSome then 0x20 else 0) ||| (if x.extension.isSome then 0x10 else 0) |||
    UInt8.ofNat x.csrcs.length

def secondByte (x : Parts) : UInt8 := (if x.marker then 0x80 else 0) ||| x.payloadType

def fixedHeader (x : Parts) : List UInt8 :=
  [x.firstByte, x.secondByte] ++ writeBE16 x.seqNum ++ writeBE32 x.timestamp ++ writeBE32 x.ssrc

def extensionBytes (x : Parts) : List UInt8 := x.extension.elim [] ExtensionBlock.encode

def paddingBytes (x : Parts) : List UInt8 := x.padding.elim [] Padding.encode

/-- The packet of RFC 3550. -/
def encode (x : Parts) : List UInt8 :=
  x.fixedHeader ++ (x.csrcs.flatMap writeBE32 ++ (x.extensionBytes ++
    (x.payload ++ x.paddingBytes)))

def extensionSize (x : Parts) : ℕ := x.extension.elim 0 fun e ↦ 4 + 4 * e.words

def paddingSize (x : Parts) : ℕ := x.padding.elim 0 Padding.size

def payloadOffset (x : Parts) : ℕ := 12 + 4 * x.csrcs.length + x.extensionSize

end Parts

/-- `Parse` answers with the fields of the packet, and the payload that it delimits in memory
is the one of the packet. -/
structure Decoded (x : Parts) (m : Memory) (out : Bool × RTPPacket) : Prop where
  accepted : out.1 = true
  maker : out.2.maker = x.marker
  payloadType : out.2.payloadType = x.payloadType
  seqNum : out.2.seqNum = x.seqNum
  timestamp : out.2.timestamp = x.timestamp
  ssrc : out.2.ssrc = x.ssrc
  payloadOffset : out.2.payloadOffset = x.payloadOffset
  size : out.2.payloadOffset + out.2.payloadSize + out.2.paddingSize = x.encode.length
  payload : Serialized.payload out.2 m = x.payload

section WellFormed

variable {m : Memory} {size : ℕ}

/-- What `Parse` makes of a well-formed packet. The elements of the extension block decide
nothing but the recorded extensions. -/
theorem parse_wellFormed (h : WellFormed m size) (p : RTPPacket) (data : ℕ) : ∃ exts,
    (p.parse data size).value m = (true, { parsedHeader p data size m with
      exts := exts
      payloadOffset := headerSize m + Grammar.extensionSize m
      payloadSize := size - (headerSize m + Grammar.extensionSize m) -
        Grammar.paddingSize m size }) := by
  have hfits := h.fits
  rw [parse_value p data h.toHeaderFits, if_neg fun hp ↦ h.padded hp.1 hp.2]
  by_cases hext : HasExtension m
  · have hsize : Grammar.extensionSize m = 4 + extensionCapacity m := if_pos hext
    rw [if_pos hext, parseExtension_value _ rfl, if_pos (h.extensionData hext), RTPPacket.finish,
      if_neg (by simp only [parsedHeader]; omega), hsize, ← Nat.add_assoc]
    exact ⟨_, rfl⟩
  · have hsize : Grammar.extensionSize m = 0 := if_neg hext
    rw [if_neg hext, RTPPacket.finish, if_neg (by simp only [parsedHeader]; omega), hsize]
    exact ⟨p.exts, rfl⟩

end WellFormed

namespace Parts

theorem firstByte_bits (x : Parts) : x.firstByte >>> 6 = 2 ∧
    (x.firstByte &&& 0x20 ≠ 0 ↔ x.padding.isSome = true) ∧
    (x.firstByte &&& 0x10 ≠ 0 ↔ x.extension.isSome = true) ∧
    (x.firstByte &&& 0x0f).toNat = x.csrcs.length := by
  have hall : ∀ (padded extended : Bool) (n : Fin 16),
      let b : UInt8 := 0x80 ||| (if padded then 0x20 else 0) ||| (if extended then 0x10 else 0) |||
        UInt8.ofNat n
      b >>> 6 = 2 ∧ (b &&& 0x20 ≠ 0 ↔ padded = true) ∧ (b &&& 0x10 ≠ 0 ↔ extended = true) ∧
        (b &&& 0x0f).toNat = n := by
    decide
  exact hall x.padding.isSome x.extension.isSome ⟨x.csrcs.length, Nat.lt_succ_of_le x.length_csrcs⟩

theorem secondByte_bits (x : Parts) :
    decide (x.secondByte &&& 0x80 ≠ 0) = x.marker ∧ x.secondByte &&& 0x7f = x.payloadType := by
  have hall : ∀ (marker : Bool) (n : Fin 128),
      let b : UInt8 := (if marker then 0x80 else 0) ||| UInt8.ofNat n
      decide (b &&& 0x80 ≠ 0) = marker ∧ b &&& 0x7f = UInt8.ofNat n := by
    decide +kernel
  have h := hall x.marker ⟨x.payloadType.toNat, x.payloadType_lt⟩
  rwa [UInt8.ofNat_toNat] at h

theorem length_csrcBytes (l : List UInt32) : (l.flatMap writeBE32).length = 4 * l.length := by
  induction l with
  | nil => rfl
  | cons c l ih =>
    rw [List.flatMap_cons, List.length_append, ih, length_writeBE32, List.length_cons]
    omega

theorem length_extensionBytes (x : Parts) : x.extensionBytes.length = x.extensionSize := by
  rw [extensionBytes, extensionSize]
  cases x.extension with
  | none => rfl
  | some e => exact e.length_encode

theorem length_paddingBytes (x : Parts) : x.paddingBytes.length = x.paddingSize := by
  rw [paddingBytes, paddingSize]
  cases x.padding with
  | none => rfl
  | some p => simp [Padding.encode, Padding.size]

theorem length_encode (x : Parts) :
    x.encode.length = x.payloadOffset + x.payload.length + x.paddingSize := by
  have hfixed : x.fixedHeader.length = 12 := rfl
  simp only [encode, List.length_append, hfixed, length_csrcBytes, length_extensionBytes,
    length_paddingBytes, payloadOffset]
  omega

end Parts

section Stored

variable {x : Parts} {m : Memory}

/-- Where the parts of the packet are in memory. -/
structure Stored (x : Parts) (m : Memory) : Prop where
  fixedHeader : Stores m 0 x.fixedHeader
  extension : Stores m (12 + 4 * x.csrcs.length) x.extensionBytes
  payload : Stores m x.payloadOffset x.payload
  padding : Stores m (x.payloadOffset + x.payload.length) x.paddingBytes

theorem stored (h : Stores m 0 x.encode) : Stored x m := by
  have hfixed : x.fixedHeader.length = 12 := rfl
  simp only [Parts.encode, stores_append, hfixed, Parts.length_csrcBytes, Nat.zero_add,
    Parts.length_extensionBytes] at h
  exact ⟨h.1, h.2.2.1, h.2.2.2.1, h.2.2.2.2⟩

theorem fixedHeader_stored (h : Stored x m) : m 0 = x.firstByte ∧ m 1 = x.secondByte ∧
    be16 (m 2) (m 3) = x.seqNum ∧ be32 (m 4) (m 5) (m 6) (m 7) = x.timestamp ∧
    be32 (m 8) (m 9) (m 10) (m 11) = x.ssrc := by
  have hfixed := h.fixedHeader
  simp only [Parts.fixedHeader, writeBE16, writeBE32, List.cons_append, List.nil_append, stores_cons,
    Nat.reduceAdd] at hfixed
  obtain ⟨h₀, h₁, h₂, h₃, h₄, h₅, h₆, h₇, h₈, h₉, h₁₀, h₁₁, -⟩ := hfixed
  rw [h₂, h₃, h₄, h₅, h₆, h₇, h₈, h₉, h₁₀, h₁₁, be16_writeBE16, be32_writeBE32, be32_writeBE32]
  exact ⟨h₀, h₁, rfl, rfl, rfl⟩

theorem headerSize_stored (h : Stored x m) : headerSize m = 12 + 4 * x.csrcs.length := by
  rw [headerSize, (fixedHeader_stored h).1, x.firstByte_bits.2.2.2]

theorem hasExtension_stored (h : Stored x m) : HasExtension m ↔ x.extension.isSome = true := by
  rw [HasExtension, (fixedHeader_stored h).1]
  exact x.firstByte_bits.2.2.1

theorem hasPadding_stored (h : Stored x m) : HasPadding m ↔ x.padding.isSome = true := by
  rw [HasPadding, (fixedHeader_stored h).1]
  exact x.firstByte_bits.2.1

theorem extensionSize_stored (h : Stored x m) : Grammar.extensionSize m = x.extensionSize := by
  have hext := h.extension
  rw [Grammar.extensionSize, Parts.extensionSize]
  cases he : x.extension with
  | none =>
    rw [if_neg (by rw [hasExtension_stored h, he]; exact Bool.false_ne_true)]
    rfl
  | some e =>
    rw [if_pos (by rw [hasExtension_stored h, he]; rfl), extensionCapacity, headerSize_stored h]
    simp only [Parts.extensionBytes, he, Option.elim_some, ExtensionBlock.encode, writeBE16,
      List.cons_append, List.nil_append, stores_cons] at hext
    obtain ⟨-, -, h₂, h₃, -⟩ := hext
    rw [h₂, h₃, be16_writeBE16, UInt16.toNat_ofNat_of_lt' e.words_lt]
    rfl

theorem lastByte_stored (h : Stored x m) {p : Padding} (hp : x.padding = some p) :
    m (x.encode.length - 1) = UInt8.ofNat p.size := by
  have hpad := h.padding
  rw [Parts.paddingBytes, hp, Option.elim_some, Padding.encode, stores_append] at hpad
  have hlast := ((stores_cons _ _ _ _).mp hpad.2).1
  rw [x.length_encode, Parts.paddingSize, hp, Option.elim_some, Padding.size]
  exact hlast

theorem size_toNat (p : Padding) : (UInt8.ofNat p.size).toNat = p.size :=
  UInt8.toNat_ofNat_of_lt' (Nat.succ_lt_succ p.length_lt)

theorem paddingSize_stored (h : Stored x m) :
    Grammar.paddingSize m x.encode.length = x.paddingSize := by
  rw [Grammar.paddingSize]
  cases hp : x.padding with
  | none =>
    rw [if_neg (by rw [hasPadding_stored h, hp]; exact Bool.false_ne_true), Parts.paddingSize, hp]
    rfl
  | some p =>
    rw [if_pos (by rw [hasPadding_stored h, hp]; rfl), lastByte_stored h hp, size_toNat,
      Parts.paddingSize, hp]
    rfl

theorem wellFormed_stored (h : Stored x m) : WellFormed m x.encode.length := by
  have hlength := x.length_encode
  have hheader := headerSize_stored h
  have hextension := extensionSize_stored h
  have hpadding := paddingSize_stored h
  simp only [Parts.payloadOffset] at hlength
  have hdata (he : HasExtension m) : headerSize m + 4 + extensionCapacity m ≤ x.encode.length := by
    have hsize : Grammar.extensionSize m = 4 + extensionCapacity m := if_pos he
    omega
  refine ⟨⟨by omega, ?_, by omega⟩, fun he ↦ ?_, hdata, fun hp ↦ ?_, by omega⟩
  · rw [(fixedHeader_stored h).1]
    exact x.firstByte_bits.1
  · have hle := hdata he
    omega
  · obtain ⟨p, hp⟩ := Option.isSome_iff_exists.mp ((hasPadding_stored h).mp hp)
    rw [lastByte_stored h hp]
    intro hzero
    have hnat := congrArg UInt8.toNat hzero
    rw [size_toNat] at hnat
    cases hnat

/-- Every packet that is put together as the diagram says is decoded to its parts. -/
theorem parse_decoded (x : Parts) (m : Memory) (h : Stores m 0 x.encode) (p : RTPPacket)
    (data : ℕ) : Decoded x m ((p.parse data x.encode.length).value m) := by
  have hs := stored h
  obtain ⟨-, hsecond, hseqNum, htimestamp, hssrc⟩ := fixedHeader_stored hs
  obtain ⟨hmarker, htype⟩ := x.secondByte_bits
  obtain ⟨exts, hparse⟩ := parse_wellFormed (wellFormed_stored hs) p data
  have hoffset : headerSize m + Grammar.extensionSize m = x.payloadOffset := by
    rw [headerSize_stored hs, extensionSize_stored hs, Parts.payloadOffset]
  have hpadding := paddingSize_stored hs
  have hlength := x.length_encode
  have hpayload : x.encode.length - x.payloadOffset - x.paddingSize = x.payload.length := by omega
  rw [hparse, hoffset, hpadding, hpayload]
  refine ⟨rfl, ?_, ?_, hseqNum, htimestamp, hssrc, rfl, ?_, hs.payload⟩
  · simp only [parsedHeader, hsecond]
    exact hmarker
  · simp only [parsedHeader, hsecond]
    exact htype
  · simp only [parsedHeader, hpadding]
    exact hlength.symm

end Stored

/-- One contributing source, an extension block of an unknown profile, three bytes of payload
and two of padding. -/
def fullPacket : Parts where
  marker := true
  payloadType := 96
  seqNum := 0x0102
  timestamp := 7
  ssrc := 9
  csrcs := [11]
  extension := some ⟨0xABCD, 1, [0xFF, 0xFF, 0, 1], by decide, by decide⟩
  payload := [0xAA, 0xBB, 0xCC]
  padding := some ⟨[0xEE], by decide⟩
  payloadType_lt := by decide
  length_csrcs := by decide

theorem fullPacket_decoded : Stores (ofList fullPacket.encode) 0 fullPacket.encode ∧
    Decoded fullPacket (ofList fullPacket.encode)
      ((RTPPacket.parse default 0 29).value (ofList fullPacket.encode)) := by
  have h : Stores (ofList fullPacket.encode) 0 fullPacket.encode := by decide
  exact ⟨h, parse_decoded fullPacket _ h default 0⟩

end Spadia.Rtp.Layout
