import Spadia.Rtp.Grammar

namespace Spadia.Rtp.Extensions

open Foundation.TracedRead Read Wire.ByteOrder Packet Grammar

/-- A piece of an extension block: a zero padding byte or an element with its data. -/
inductive Item
  | pad
  | element (id : UInt8) (bytes : List UInt8)

namespace Item

def encode (profile : UInt16) : Item → List UInt8
  | pad => [kPaddingByte]
  | element id bytes =>
    if profile = kOneByteExtensionProfileId then
      (id <<< 4 ||| UInt8.ofNat (bytes.length - 1)) :: bytes
    else id :: UInt8.ofNat bytes.length :: bytes

/-- The ids and lengths that a profile can express. -/
def Legal (profile : UInt16) : Item → Prop
  | pad => True
  | element id bytes =>
    if profile = kOneByteExtensionProfileId then
      1 ≤ id.toNat ∧ id.toNat ≤ 14 ∧ 1 ≤ bytes.length ∧ bytes.length ≤ 16
    else 1 ≤ id.toNat ∧ 1 ≤ bytes.length ∧ bytes.length ≤ 255

def IsPad : Item → Prop
  | pad => True
  | element _ _ => False

end Item

def encodeAll (profile : UInt16) (items : List Item) : List UInt8 :=
  items.flatMap (Item.encode profile)

structure Located where
  id : UInt8
  bytes : List UInt8
  start : ℕ

def Located.extension (e : Located) : RTPExtension := ⟨e.id, UInt8.ofNat e.bytes.length, e.start⟩

def located (profile : UInt16) : ℕ → List Item → List Located
  | _, [] => []
  | pos, .pad :: items => located profile (pos + 1) items
  | pos, .element id bytes :: items =>
    ⟨id, bytes, pos + extensionHeaderLength profile⟩ ::
      located profile (pos + (extensionHeaderLength profile + bytes.length)) items

def lastWith (l : List Located) (id : UInt16) : Option Located :=
  l.reverse.find? fun e ↦ e.id.toUInt16 = id

def received (raw : RTPPacket) (now : UInt64) (data size : ℕ) (m : Memory) : RTPPacket :=
  (((RTPPacket.create raw now).parse data size).value m).2

/-- The datagram is a well-formed packet whose extension block is made of `items`. -/
structure Carries (m : Memory) (size : ℕ) (profile : UInt16) (items : List Item) : Prop where
  wellFormed : WellFormed m size
  hasExtension : HasExtension m
  known : profile = kOneByteExtensionProfileId ∨ profile = kTwoByteExtensionProfileId
  profile_eq : extensionProfile m = profile
  legal : ∀ i ∈ items, i.Legal profile
  block : ∃ k, (encodeAll profile items).length + k = extensionCapacity m ∧
    Stores m (headerSize m + 4) (encodeAll profile items ++ List.replicate k kPaddingByte)

/-- Each id is recorded with the length and the place of its last element, and the
transport number under an id is read from that element. -/
structure Decodes (m : Memory) (p : RTPPacket) (l : List Located) : Prop where
  exts : ∀ id : UInt16, p.exts[id]? = (lastWith l id).map Located.extension
  present : ∀ id : UInt8, ((p.getTransportCCNum id).value m).isSome = (lastWith l id.toUInt16).isSome
  number : ∀ (id : UInt8) (e : Located) (b₀ b₁ : UInt8) (rest : List UInt8),
    lastWith l id.toUInt16 = some e → e.bytes = b₀ :: b₁ :: rest →
      (p.getTransportCCNum id).value m = some (be16 b₀ b₁)

/-- Only the first item of the block may be an element. -/
def AtMostLeading (items : List Item) : Prop := ∀ i ∈ items.tail, i.IsPad

theorem oneByte_header (id : UInt8) (n : ℕ) (h₁ : 1 ≤ id.toNat) (h₂ : id.toNat ≤ 14)
    (h₃ : 1 ≤ n) (h₄ : n ≤ 16) :
    (id <<< 4 ||| UInt8.ofNat (n - 1)) ≠ kPaddingByte ∧
      (id <<< 4 ||| UInt8.ofNat (n - 1)) >>> 4 = id ∧
      (1 : UInt8) + ((id <<< 4 ||| UInt8.ofNat (n - 1)) &&& 0xf) = UInt8.ofNat n := by
  have hall : ∀ i : Fin 15, 1 ≤ i.val → ∀ j : Fin 17, 1 ≤ j.val →
      (UInt8.ofNat i <<< 4 ||| UInt8.ofNat (j - 1)) ≠ kPaddingByte ∧
      (UInt8.ofNat i <<< 4 ||| UInt8.ofNat (j - 1)) >>> 4 = UInt8.ofNat i ∧
      (1 : UInt8) + ((UInt8.ofNat i <<< 4 ||| UInt8.ofNat (j - 1)) &&& 0xf) = UInt8.ofNat j := by
    decide +kernel
  have h := hall ⟨id.toNat, by omega⟩ h₁ ⟨n, by omega⟩ h₃
  rwa [UInt8.ofNat_toNat] at h

section Loop

variable {m : Memory} {profile : UInt16} {offset capacity : ℕ}
variable {exts : Std.ExtTreeMap UInt16 RTPExtension} {pos : ℕ}

theorem loop_done (h : capacity ≤ pos) :
    (extensionLoop profile offset capacity exts pos).value m = exts := by
  rw [extensionLoop, dif_neg (by omega)]
  rfl

theorem loop_pad (h : m (offset + pos) = kPaddingByte) :
    (extensionLoop profile offset capacity exts pos).value m =
      (extensionLoop profile offset capacity exts (pos + 1)).value m := by
  by_cases hp : pos + extensionHeaderLength profile < capacity
  · rw [extensionLoop, dif_pos hp]
    simp [h]
  · rw [extensionLoop, dif_neg hp, extensionLoop, dif_neg (by omega)]

/-- The loop records every element with the place of the first data byte of the block. -/
theorem loop_element {id : UInt8} {bytes : List UInt8}
    (hl : (Item.element id bytes).Legal profile)
    (hs : Stores m (offset + pos) ((Item.element id bytes).encode profile))
    (hc : pos + (extensionHeaderLength profile + bytes.length) ≤ capacity) :
    (extensionLoop profile offset capacity exts pos).value m =
      (extensionLoop profile offset capacity
        (exts.insert id.toUInt16 ⟨id, UInt8.ofNat bytes.length,
          offset + extensionHeaderLength profile⟩)
        (pos + (extensionHeaderLength profile + bytes.length))).value m := by
  by_cases ho : profile = kOneByteExtensionProfileId
  · subst ho
    simp only [Item.Legal, Item.encode, if_true] at hl hs
    obtain ⟨h₁, h₂, h₃, h₄⟩ := hl
    obtain ⟨hne, hid, hlen⟩ := oneByte_header id bytes.length h₁ h₂ h₃ h₄
    have hb := ((stores_cons _ _ _ _).mp hs).1
    have hto : (UInt8.ofNat bytes.length).toNat = bytes.length := by simp; omega
    have hid0 : id ≠ kPaddingId := by rintro rfl; simp [kPaddingId] at h₁
    have hid15 : id ≠ kOneByteHeaderExtensionReservedId := by
      rintro rfl; simp [kOneByteHeaderExtensionReservedId] at h₂
    rw [extensionLoop, dif_pos (by omega)]
    simp only [value_bind, value_byte, value_ite, hb, hne, hid, hlen, hto, hid0, hid15,
      if_true, if_false, false_and, or_self]
    rw [if_neg (by omega)]
    rfl
  · simp only [Item.Legal, Item.encode, ho, if_false] at hl hs
    obtain ⟨h₁, h₂, h₃⟩ := hl
    obtain ⟨hb, hs'⟩ := (stores_cons _ _ _ _).mp hs
    have hb' := ((stores_cons _ _ _ _).mp hs').1
    have hto : (UInt8.ofNat bytes.length).toNat = bytes.length := by simp; omega
    have hne : id ≠ kPaddingByte := by rintro rfl; simp [kPaddingByte] at h₁
    have hh : extensionHeaderLength profile = 2 := by
      simp [extensionHeaderLength, ho, kTwoByteExtensionHeaderLength]
    rw [extensionLoop, dif_pos (by omega)]
    simp only [value_bind, value_byte, value_ite, hb, hb', hne, ho, hto, hh, if_false]
    rw [if_neg (by omega)]

theorem loop_zeros (k : ℕ) (hk : pos + k = capacity)
    (hs : Stores m (offset + pos) (List.replicate k kPaddingByte)) :
    (extensionLoop profile offset capacity exts pos).value m = exts := by
  induction k generalizing pos with
  | zero => exact loop_done (by omega)
  | succ k ih =>
    rw [List.replicate_succ, stores_cons] at hs
    rw [loop_pad hs.1]
    exact ih (by omega) hs.2

theorem encode_element (profile : UInt16) (id : UInt8) (bytes : List UInt8) : ∃ header : List UInt8,
    header.length = extensionHeaderLength profile ∧
      (Item.element id bytes).encode profile = header ++ bytes := by
  by_cases ho : profile = kOneByteExtensionProfileId
  · exact ⟨[id <<< 4 ||| UInt8.ofNat (bytes.length - 1)],
      by simp [extensionHeaderLength, ho, kOneByteExtensionHeaderLength],
      by simp [Item.encode, ho]⟩
  · exact ⟨[id, UInt8.ofNat bytes.length],
      by simp [extensionHeaderLength, ho, kTwoByteExtensionHeaderLength],
      by simp [Item.encode, ho]⟩

theorem encode_length {id : UInt8} {bytes : List UInt8} :
    ((Item.element id bytes).encode profile).length =
      extensionHeaderLength profile + bytes.length := by
  obtain ⟨header, hh, he⟩ := encode_element profile id bytes
  rw [he, List.length_append, hh]

/-- What the element loop leaves in the map: every element under its id, but always with
the index `offset + extensionHeaderLength profile`. -/
theorem loop_items (pos : ℕ) (items : List Item) (k : ℕ) (hl : ∀ i ∈ items, i.Legal profile)
    (hk : pos + (encodeAll profile items).length + k = capacity)
    (hs : Stores m (offset + pos) (encodeAll profile items ++ List.replicate k kPaddingByte)) :
    (extensionLoop profile offset capacity exts pos).value m =
      (located profile (offset + pos) items).foldl (fun t e ↦ t.insert e.id.toUInt16
        ⟨e.id, UInt8.ofNat e.bytes.length, offset + extensionHeaderLength profile⟩) exts := by
  induction items generalizing pos exts with
  | nil =>
    rw [encodeAll, List.flatMap_nil, List.nil_append] at hs
    exact loop_zeros k (by simpa [encodeAll] using hk) hs
  | cons item items ih =>
    rw [encodeAll, List.flatMap_cons, List.append_assoc, stores_append] at hs
    simp only [encodeAll, List.flatMap_cons, List.length_append] at hk
    obtain ⟨hs, hs'⟩ := hs
    rw [Nat.add_assoc] at hs'
    have hl' : ∀ i ∈ items, i.Legal profile := fun i hi ↦ hl i (List.mem_cons_of_mem _ hi)
    cases item with
    | pad =>
      rw [loop_pad ((stores_cons _ _ _ _).mp hs).1]
      rw [show (Item.pad.encode profile).length = 1 from rfl] at hk
      exact ih (pos + 1) hl' (by simp only [encodeAll]; omega) hs'
    | element id bytes =>
      rw [encode_length] at hk hs'
      rw [loop_element (hl _ List.mem_cons_self) hs (by omega)]
      have e : offset + pos + (extensionHeaderLength profile + bytes.length) =
          offset + (pos + (extensionHeaderLength profile + bytes.length)) := Nat.add_assoc _ _ _
      rw [located, List.foldl_cons, e]
      exact ih _ hl' (by simp only [encodeAll]; omega) hs'

end Loop

section Located

variable {profile : UInt16} {pos : ℕ} {items : List Item}

theorem start_ge {e : Located} (h : e ∈ located profile pos items) :
    pos + extensionHeaderLength profile ≤ e.start := by
  induction items generalizing pos with
  | nil => simp [located] at h
  | cons item items ih =>
    cases item with
    | pad => have h' := ih h; omega
    | element id bytes =>
      rcases List.mem_cons.mp h with rfl | h
      · exact le_rfl
      · have h' := ih h; omega

theorem located_eq_nil (h : ∀ i ∈ items, i.IsPad) : located profile pos items = [] := by
  induction items generalizing pos with
  | nil => rfl
  | cons item items ih =>
    cases item with
    | pad => exact ih fun i hi ↦ h i (List.mem_cons_of_mem _ hi)
    | element id bytes => exact (h _ List.mem_cons_self).elim

theorem located_ne_nil (h : ¬ ∀ i ∈ items, i.IsPad) : located profile pos items ≠ [] := by
  induction items generalizing pos with
  | nil => simp at h
  | cons item items ih =>
    cases item with
    | pad => exact ih (by simpa [Item.IsPad] using h)
    | element id bytes => simp [located]

theorem stores_located {m : Memory} (hs : Stores m pos (encodeAll profile items))
    {e : Located} (h : e ∈ located profile pos items) : Stores m e.start e.bytes := by
  induction items generalizing pos with
  | nil => simp [located] at h
  | cons item items ih =>
    rw [encodeAll, List.flatMap_cons, stores_append] at hs
    cases item with
    | pad => exact ih hs.2 h
    | element id bytes =>
      rcases List.mem_cons.mp h with rfl | h
      · obtain ⟨header, hh, he⟩ := encode_element profile id bytes
        rw [he, stores_append, hh] at hs
        exact hs.1.2
      · rw [encode_length] at hs
        exact ih hs.2 h

theorem start_eq (h : AtMostLeading items) {e : Located} (he : e ∈ located profile pos items) :
    e.start = pos + extensionHeaderLength profile := by
  cases items with
  | nil => simp [located] at he
  | cons item items =>
    have hnil (pos' : ℕ) : located profile pos' items = [] := located_eq_nil h
    cases item with
    | pad => simp [located, hnil] at he
    | element id bytes =>
      simp only [located, hnil, List.mem_singleton] at he
      rw [he]

theorem exists_later (profile : UInt16) (pos : ℕ) (h : ¬ AtMostLeading items) : ∃ l e,
    located profile pos items = l ++ [e] ∧ pos + extensionHeaderLength profile < e.start := by
  cases items with
  | nil => simp [AtMostLeading] at h
  | cons item items =>
    have hlast (pos' : ℕ) (hpos : pos < pos') : ∃ l e,
        located profile pos' items = l ++ [e] ∧ pos + extensionHeaderLength profile < e.start := by
      obtain hnil | ⟨l, e, hle⟩ := (located profile pos' items).eq_nil_or_concat
      · exact absurd hnil (located_ne_nil h)
      · rw [List.concat_eq_append] at hle
        refine ⟨l, e, hle, ?_⟩
        have he := start_ge (show e ∈ located profile pos' items by simp [hle])
        omega
    have hh := extensionHeaderLength_pos profile
    cases item with
    | pad => exact hlast (pos + 1) (by omega)
    | element id bytes =>
      obtain ⟨l, e, hle, he⟩ := hlast (pos + (extensionHeaderLength profile + bytes.length)) (by omega)
      exact ⟨_ :: l, e, by rw [located, hle, List.cons_append], he⟩

end Located

theorem lastWith_cons (e : Located) (l : List Located) (id : UInt16) :
    lastWith (e :: l) id = (lastWith l id).or (if e.id.toUInt16 = id then some e else none) := by
  simp [lastWith, List.find?_append, List.find?_singleton]

theorem lastWith_concat (l : List Located) (e : Located) :
    lastWith (l ++ [e]) e.id.toUInt16 = some e := by
  simp [lastWith]

theorem mem_of_lastWith {l : List Located} {id : UInt16} {e : Located}
    (h : lastWith l id = some e) : e ∈ l :=
  List.mem_reverse.mp (List.mem_of_find?_eq_some h)

theorem foldl_insert_get (l : List Located) (f : Located → RTPExtension)
    (t : Std.ExtTreeMap UInt16 RTPExtension) (id : UInt16) :
    (l.foldl (fun t e ↦ t.insert e.id.toUInt16 (f e)) t)[id]? =
      ((lastWith l id).map f).or t[id]? := by
  induction l generalizing t with
  | nil => simp [lastWith]
  | cons e l ih =>
    rw [List.foldl_cons, ih, lastWith_cons, Std.ExtTreeMap.getElem?_insert]
    cases lastWith l id <;> by_cases he : e.id.toUInt16 = id <;> simp [he]

theorem finish_exts (p : RTPPacket) (size : ℕ) : (p.finish size).2.exts = p.exts := by
  unfold RTPPacket.finish
  split <;> rfl

variable {m : Memory} {size : ℕ} {profile : UInt16} {items : List Item}

theorem parse_exts (h : Carries m size profile items) (raw : RTPPacket) (now : UInt64) (data : ℕ)
    (id : UInt16) : (received raw now data size m).exts[id]? =
      (lastWith (located profile (headerSize m + 4) items) id).map fun e ↦
        ⟨e.id, UInt8.ofNat e.bytes.length, headerSize m + 4 + extensionHeaderLength profile⟩ := by
  obtain ⟨k, hk, hs⟩ := h.block
  have hw := h.wellFormed
  have hp : ¬ (HasPadding m ∧ m (size - 1) = 0) := fun hp ↦ hw.padded hp.1 hp.2
  have h₂ := hw.extensionData h.hasExtension
  have hprofile : ¬ (profile ≠ kOneByteExtensionProfileId ∧
      profile ≠ kTwoByteExtensionProfileId) := fun hn ↦ h.known.elim hn.1 hn.2
  rw [received, parse_value _ data hw.toHeaderFits, if_neg hp, if_pos h.hasExtension]
  rw [parseExtension_value _ rfl, if_pos h₂, finish_exts, h.profile_eq]
  simp only [recordExtensions, hprofile, if_false, parsedHeader, RTPPacket.create]
  rw [loop_items 0 items k h.legal (by omega) hs, foldl_insert_get]
  simp

theorem getTransportCCNum_value (p : RTPPacket) (id : UInt8) : (p.getTransportCCNum id).value m =
    p.exts[id.toUInt16]?.map fun e ↦ be16 (m e.data) (m (e.data + 1)) := by
  unfold RTPPacket.getTransportCCNum
  cases p.exts[id.toUInt16]? <;> rfl

/-- The extensions of a packet are decoded to their own bytes exactly when no element
follows the first item of the block. -/
theorem extensions_decoded_iff (h : Carries m size profile items) (raw : RTPPacket) (now : UInt64)
    (data : ℕ) : Decodes m (received raw now data size m)
      (located profile (headerSize m + 4) items) ↔ AtMostLeading items := by
  have hexts := parse_exts h raw now data
  constructor
  · intro hd
    by_contra hn
    -- The last element of the block is recorded under its id, at a place before its data.
    obtain ⟨l, e, hle, hlt⟩ := exists_later profile (headerSize m + 4) hn
    have he := (hexts e.id.toUInt16).symm.trans (hd.exts e.id.toUInt16)
    simp only [hle, lastWith_concat, Option.map_some, Option.some.injEq, Located.extension,
      RTPExtension.mk.injEq, true_and] at he
    omega
  · intro ha
    have hplace : ∀ id : UInt16, (received raw now data size m).exts[id]? =
        (lastWith (located profile (headerSize m + 4) items) id).map Located.extension := by
      intro id
      rw [hexts id]
      cases hl : lastWith (located profile (headerSize m + 4) items) id with
      | none => rfl
      | some e =>
        simp only [Option.map_some, Located.extension, start_eq ha (mem_of_lastWith hl)]
    refine ⟨hplace, fun id ↦ ?_, fun id e b₀ b₁ rest hl hb ↦ ?_⟩
    · simp [getTransportCCNum_value, hplace]
    · obtain ⟨k, -, hs⟩ := h.block
      have hs' := stores_located ((stores_append _ _ _ _).mp hs).1 (mem_of_lastWith hl)
      simp only [hb, stores_cons] at hs'
      simp [getTransportCCNum_value, hplace, hl, Located.extension, hs'.1, hs'.2.1]

def oneElement : Memory := ofList
  [0x90, 96, 0, 1, 0, 0, 0, 0, 0, 0, 0, 7, 0xBE, 0xDE, 0, 1, 0x21, 0x12, 0x34, 0]

theorem oneElement_decoded :
    Carries oneElement 20 kOneByteExtensionProfileId [.element 2 [0x12, 0x34]] ∧
      Decodes oneElement (received default 1 0 20 oneElement)
        (located kOneByteExtensionProfileId (headerSize oneElement + 4)
          [.element 2 [0x12, 0x34]]) := by
  have h : Carries oneElement 20 kOneByteExtensionProfileId [.element 2 [0x12, 0x34]] :=
    ⟨by decide, by decide, .inl rfl, by decide, by simp [Item.Legal], 1, by decide, by decide⟩
  exact ⟨h, (extensions_decoded_iff h default 1 0).mpr (by simp [AtMostLeading])⟩

def twoElements : Memory := ofList
  [0x90, 96, 0, 1, 0, 0, 0, 0, 0, 0, 0, 7, 0xBE, 0xDE, 0, 2,
    0x10, 0xAA, 0x21, 0x12, 0x34, 0, 0, 0]

theorem twoElements_misread :
    Carries twoElements 24 kOneByteExtensionProfileId
      [.element 1 [0xAA], .element 2 [0x12, 0x34]] ∧
    ((received default 1 0 24 twoElements).getTransportCCNum 2).value twoElements =
      some 0xAA21 ∧
    ¬ Decodes twoElements (received default 1 0 24 twoElements)
      (located kOneByteExtensionProfileId (headerSize twoElements + 4)
        [.element 1 [0xAA], .element 2 [0x12, 0x34]]) := by
  refine ⟨⟨by decide, by decide, .inl rfl, by decide, ?_, 3, by decide, by decide⟩, ?_, ?_⟩
  · simp [Item.Legal]
  · decide +kernel
  · intro hd
    have h := hd.number 2 ⟨2, [0x12, 0x34], 19⟩ 0x12 0x34 [] rfl rfl
    revert h
    decide +kernel

end Spadia.Rtp.Extensions
