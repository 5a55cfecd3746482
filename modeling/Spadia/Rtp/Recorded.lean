import Spadia.Rtp.Extensions

namespace Spadia.Rtp.Recorded

open Foundation.TracedRead Read Wire.ByteOrder Packet Grammar Extensions

structure Recording where
  pos : ℕ
  ext : RTPExtension
deriving DecidableEq, Repr

def Recording.assign (exts : Std.ExtTreeMap UInt16 RTPExtension) (r : Recording) :
    Std.ExtTreeMap UInt16 RTPExtension :=
  exts.insert r.ext.id.toUInt16 r.ext

def elementId (profile : UInt16) (b : UInt8) : UInt8 :=
  if profile = kOneByteExtensionProfileId then b >>> 4 else b

def elementLength (profile : UInt16) (b next : UInt8) : UInt8 :=
  if profile = kOneByteExtensionProfileId then 1 + (b &&& 0xf) else next

section Loop

variable (m : Memory) (profile : UInt16) (offset capacity : ℕ)

def idAt (pos : ℕ) : UInt8 := elementId profile (m (offset + pos))

def lengthAt (pos : ℕ) : UInt8 :=
  elementLength profile (m (offset + pos)) (m (offset + pos + 1))

def Reserved (pos : ℕ) : Prop :=
  profile = kOneByteExtensionProfileId ∧
    (idAt m profile offset pos = kOneByteHeaderExtensionReservedId ∨
      idAt m profile offset pos = kPaddingId ∧ lengthAt m profile offset pos ≠ 1)

def Overruns (pos : ℕ) : Prop :=
  pos + extensionHeaderLength profile + (lengthAt m profile offset pos).toNat > capacity

instance (pos : ℕ) : Decidable (Reserved m profile offset pos) :=
  inferInstanceAs (Decidable (_ ∧ (_ ∨ _ ∧ _)))

instance (pos : ℕ) : Decidable (Overruns m profile offset capacity pos) :=
  inferInstanceAs (Decidable (_ > _))

def recording (pos : ℕ) : Recording :=
  ⟨pos, idAt m profile offset pos, lengthAt m profile offset pos,
    offset + extensionHeaderLength profile⟩

/-- The assignments of the element loop in their order, from the position `pos` on. -/
def recordings (pos : ℕ) : List Recording :=
  if pos + extensionHeaderLength profile < capacity then
    if m (offset + pos) = kPaddingByte then recordings (pos + 1)
    else if Reserved m profile offset pos ∨ Overruns m profile offset capacity pos then
      [recording m profile offset pos]
    else recording m profile offset pos ::
      recordings (pos + (extensionHeaderLength profile + (lengthAt m profile offset pos).toNat))
  else []
termination_by capacity - pos
decreasing_by
  all_goals have hp := extensionHeaderLength_pos profile; omega

/-- A block whose walk meets only elements with an id of their own that end inside the block. -/
inductive Tidy : ℕ → Prop
  | done {pos : ℕ} (hend : capacity ≤ pos + extensionHeaderLength profile) : Tidy pos
  | pad {pos : ℕ} (hlt : pos + extensionHeaderLength profile < capacity)
      (hzero : m (offset + pos) = kPaddingByte) (hrest : Tidy (pos + 1)) : Tidy pos
  | element {pos : ℕ} (hlt : pos + extensionHeaderLength profile < capacity)
      (hbyte : m (offset + pos) ≠ kPaddingByte) (hid : ¬ Reserved m profile offset pos)
      (hfits : ¬ Overruns m profile offset capacity pos)
      (hrest : Tidy (pos + (extensionHeaderLength profile +
        (lengthAt m profile offset pos).toNat))) : Tidy pos

variable {m profile offset capacity}

theorem round_of_element (exts : Std.ExtTreeMap UInt16 RTPExtension) {pos : ℕ}
    (hlt : pos + extensionHeaderLength profile < capacity)
    (hb : m (offset + pos) ≠ kPaddingByte) :
    (extensionLoop profile offset capacity exts pos).value m =
      if Reserved m profile offset pos ∨ Overruns m profile offset capacity pos then
        Recording.assign exts (recording m profile offset pos)
      else (extensionLoop profile offset capacity
        (Recording.assign exts (recording m profile offset pos))
        (pos + (extensionHeaderLength profile + (lengthAt m profile offset pos).toNat))).value m := by
  rw [extensionLoop, dif_pos hlt]
  simp only [value_bind, value_byte, hb, if_false, value_ite, value_pure]
  by_cases ho : profile = kOneByteExtensionProfileId
  · simp only [ho, if_true, Reserved, Overruns, Recording.assign, recording, idAt, lengthAt,
      elementId, elementLength, true_and]
    rw [← ite_or]
    rfl
  · have hlength : extensionHeaderLength profile = 2 := if_neg ho
    simp only [ho, if_false, Reserved, Overruns, Recording.assign, recording, idAt, lengthAt,
      elementId, elementLength, false_and, false_or, hlength]

theorem loop_recordings (exts : Std.ExtTreeMap UInt16 RTPExtension) (pos : ℕ) :
    (extensionLoop profile offset capacity exts pos).value m =
      (recordings m profile offset capacity pos).foldl Recording.assign exts := by
  induction pos using recordings.induct m profile offset capacity generalizing exts with
  | case1 pos hlt hbyte ih =>
    rw [recordings, if_pos hlt, if_pos hbyte, loop_pad hbyte]
    exact ih exts
  | case2 pos hlt hbyte hend =>
    rw [recordings, if_pos hlt, if_neg hbyte, if_pos hend, round_of_element exts hlt hbyte,
      if_pos hend]
    rfl
  | case3 pos hlt hbyte hend ih =>
    rw [recordings, if_pos hlt, if_neg hbyte, if_neg hend, round_of_element exts hlt hbyte,
      if_neg hend]
    exact ih _
  | case4 pos hlt =>
    rw [recordings, if_neg hlt, extensionLoop, dif_neg hlt]
    rfl

/-- What the loop may record: an id of its own and data that end inside the block. -/
structure Recording.Legal (profile : UInt16) (capacity : ℕ) (r : Recording) : Prop where
  id_ne_zero : r.ext.id ≠ kPaddingId
  id_ne_reserved : profile = kOneByteExtensionProfileId →
    r.ext.id ≠ kOneByteHeaderExtensionReservedId
  fits : r.pos + extensionHeaderLength profile + r.ext.length.toNat ≤ capacity

theorem eq_zero_of_halves {b : UInt8} (hhigh : b >>> 4 = 0) (hlow : 1 + (b &&& 0xf) = 1) :
    b = 0 := by
  have hlow' : b &&& 0xf = 0 := by simpa using hlow
  have hdiv := congrArg UInt8.toNat hhigh
  have hmod := congrArg UInt8.toNat hlow'
  rw [UInt8.toNat_shiftRight] at hdiv
  rw [UInt8.toNat_and] at hmod
  have hmod' : b.toNat % 16 = 0 := (Nat.and_two_pow_sub_one_eq_mod b.toNat 4).symm.trans hmod
  have hdiv' : b.toNat / 16 = 0 := (Nat.shiftRight_eq_div_pow b.toNat 4).symm.trans hdiv
  apply UInt8.toNat_inj.mp
  have hzero : (0 : UInt8).toNat = 0 := rfl
  omega

theorem id_ne_zero {pos : ℕ} (hbyte : m (offset + pos) ≠ kPaddingByte)
    (hid : ¬ Reserved m profile offset pos) : idAt m profile offset pos ≠ kPaddingId := by
  intro hzero
  by_cases ho : profile = kOneByteExtensionProfileId
  · -- Without the high bits, the byte is its length bits, and these are zero for the length 1.
    have hlength : lengthAt m profile offset pos = 1 := by
      by_contra hne
      exact hid ⟨ho, .inr ⟨hzero, hne⟩⟩
    simp only [idAt, lengthAt, elementId, elementLength, ho, if_true] at hzero hlength
    exact hbyte (eq_zero_of_halves hzero hlength)
  · simp only [idAt, elementId, ho, if_false] at hzero
    exact hbyte hzero

theorem legal_recording_iff {pos : ℕ} (hbyte : m (offset + pos) ≠ kPaddingByte) :
    (recording m profile offset pos).Legal profile capacity ↔
      ¬ Reserved m profile offset pos ∧ ¬ Overruns m profile offset capacity pos := by
  constructor
  · intro h
    refine ⟨fun hreserved ↦ ?_, Nat.not_lt.mpr h.fits⟩
    obtain ⟨ho, hid | ⟨hid, -⟩⟩ := hreserved
    · exact h.id_ne_reserved ho hid
    · exact h.id_ne_zero hid
  · intro h
    exact ⟨id_ne_zero hbyte h.1, fun ho hid ↦ h.1 ⟨ho, .inl hid⟩, Nat.le_of_not_lt h.2⟩

theorem tidy_iff (pos : ℕ) : Tidy m profile offset capacity pos ↔
    ∀ r ∈ recordings m profile offset capacity pos, r.Legal profile capacity := by
  constructor
  · intro h
    induction h with
    | @done pos hend =>
      rw [recordings, if_neg (Nat.not_lt.mpr hend)]
      simp
    | @pad pos hlt hzero _ ih =>
      rw [recordings, if_pos hlt, if_pos hzero]
      exact ih
    | @element pos hlt hbyte hid hfits _ ih =>
      rw [recordings, if_pos hlt, if_neg hbyte, if_neg (not_or.mpr ⟨hid, hfits⟩),
        List.forall_mem_cons]
      exact ⟨(legal_recording_iff hbyte).mpr ⟨hid, hfits⟩, ih⟩
  · induction pos using recordings.induct m profile offset capacity with
    | case1 pos hlt hbyte ih =>
      rw [recordings, if_pos hlt, if_pos hbyte]
      exact fun h ↦ .pad hlt hbyte (ih h)
    | case2 pos hlt hbyte hend =>
      rw [recordings, if_pos hlt, if_neg hbyte, if_pos hend, List.forall_mem_singleton,
        legal_recording_iff hbyte]
      exact fun h ↦ absurd hend (not_or.mpr h)
    | case3 pos hlt hbyte hend ih =>
      rw [recordings, if_pos hlt, if_neg hbyte, if_neg hend, List.forall_mem_cons]
      intro h
      obtain ⟨hid, hfits⟩ := not_or.mp hend
      exact .element hlt hbyte hid hfits (ih h.2)
    | case4 pos hlt => exact fun _ ↦ .done (Nat.le_of_not_lt hlt)

theorem data_eq_of_mem (pos : ℕ) {r : Recording}
    (h : r ∈ recordings m profile offset capacity pos) :
    r.ext.data = offset + extensionHeaderLength profile := by
  induction pos using recordings.induct m profile offset capacity with
  | case1 pos hlt hbyte ih =>
    rw [recordings, if_pos hlt, if_pos hbyte] at h
    exact ih h
  | case2 pos hlt hbyte hend =>
    rw [recordings, if_pos hlt, if_neg hbyte, if_pos hend, List.mem_singleton] at h
    rw [h]
    rfl
  | case3 pos hlt hbyte hend ih =>
    rw [recordings, if_pos hlt, if_neg hbyte, if_neg hend] at h
    rcases List.mem_cons.mp h with rfl | h
    · rfl
    · exact ih h
  | case4 pos hlt =>
    rw [recordings, if_neg hlt] at h
    cases h

end Loop

section Map

variable {l : List Recording} {exts : Std.ExtTreeMap UInt16 RTPExtension}

theorem getElem?_assign (r : Recording) (k : UInt16) :
    (r.assign exts)[k]? = if r.ext.id.toUInt16 = k then some r.ext else exts[k]? := by
  rw [Recording.assign, Std.ExtTreeMap.getElem?_insert]
  simp

theorem exists_of_foldl_assign {k : UInt16} {e : RTPExtension}
    (h : (l.foldl Recording.assign exts)[k]? = some e) :
    (∃ r ∈ l, r.ext = e ∧ e.id.toUInt16 = k) ∨ exts[k]? = some e := by
  induction l generalizing exts with
  | nil => exact .inr h
  | cons r l ih =>
    rcases ih h with ⟨r', hr', he⟩ | h'
    · exact .inl ⟨r', List.mem_cons_of_mem _ hr', he⟩
    · rw [getElem?_assign] at h'
      split at h'
      case isTrue hk =>
        cases h'
        exact .inl ⟨r, List.mem_cons_self, rfl, hk⟩
      case isFalse => exact .inr h'

theorem isSome_foldl_assign {k : UInt16} (h : (∃ r ∈ l, r.ext.id.toUInt16 = k) ∨ exts[k]?.isSome) :
    (l.foldl Recording.assign exts)[k]?.isSome := by
  induction l generalizing exts with
  | nil => simpa using h
  | cons r l ih =>
    apply ih
    by_cases hk : r.ext.id.toUInt16 = k
    · exact .inr (by simp [getElem?_assign, hk])
    · rw [getElem?_assign, if_neg hk]
      simpa [hk] using h

theorem exists_entry {r : Recording} (hr : r ∈ l) :
    ∃ (k : UInt16) (e : RTPExtension),
      (l.foldl Recording.assign ∅)[k]? = some e ∧ e.id = r.ext.id := by
  have hsome : (l.foldl Recording.assign ∅)[r.ext.id.toUInt16]?.isSome :=
    isSome_foldl_assign (.inl ⟨r, hr, rfl⟩)
  obtain ⟨e, he⟩ := Option.isSome_iff_exists.mp hsome
  refine ⟨_, e, he, ?_⟩
  rcases exists_of_foldl_assign he with ⟨r', -, -, hid⟩ | hnone
  · simpa [← UInt16.toNat_inj, UInt8.toNat_inj] using hid
  · simp at hnone

end Map

variable (m : Memory) (size : ℕ)

/-- `Parse` comes to the element loop. -/
def Walked : Prop :=
  HeaderFits m size ∧ ¬ (HasPadding m ∧ m (size - 1) = 0) ∧ HasExtension m ∧
    headerSize m + 4 + extensionCapacity m ≤ size ∧
    (extensionProfile m = kOneByteExtensionProfileId ∨
      extensionProfile m = kTwoByteExtensionProfileId)

instance : Decidable (Walked m size) := inferInstanceAs (Decidable (_ ∧ _))

/-- All assignments to the map of extensions in one run of `Parse`. -/
def assignments : List Recording :=
  if Walked m size then
    recordings m (extensionProfile m) (headerSize m + 4) (extensionCapacity m) 0
  else []

variable {m size}

theorem recordExtensions_value (exts : Std.ExtTreeMap UInt16 RTPExtension)
    (hknown : extensionProfile m = kOneByteExtensionProfileId ∨
      extensionProfile m = kTwoByteExtensionProfileId) :
    (recordExtensions (extensionProfile m) (headerSize m + 4) (extensionCapacity m) exts).value m =
      (recordings m (extensionProfile m) (headerSize m + 4) (extensionCapacity m) 0).foldl
        Recording.assign exts := by
  rw [recordExtensions, if_neg fun h ↦ hknown.elim h.1 h.2]
  exact loop_recordings exts 0

theorem data_eq {r : Recording} (h : r ∈ assignments m size) :
    r.ext.data = headerSize m + 4 + extensionHeaderLength (extensionProfile m) := by
  rw [assignments] at h
  split at h
  case isTrue => exact data_eq_of_mem 0 h
  case isFalse => cases h

theorem assignments_eq_nil (h : ¬ Walked m size) : assignments m size = [] := if_neg h

theorem parse_assignments (p : RTPPacket) (data : ℕ) : ((p.parse data size).value m).2.exts =
    (assignments m size).foldl Recording.assign p.exts := by
  by_cases hheader : HeaderFits m size
  · rw [parse_value p data hheader]
    by_cases hpad : HasPadding m ∧ m (size - 1) = 0
    · rw [if_pos hpad, assignments_eq_nil fun h ↦ h.2.1 hpad]
      rfl
    · rw [if_neg hpad]
      by_cases hext : HasExtension m
      · rw [if_pos hext, parseExtension_value _ rfl]
        by_cases hfits : headerSize m + 4 + extensionCapacity m ≤ size
        · rw [if_pos hfits, finish_exts]
          by_cases hknown : extensionProfile m = kOneByteExtensionProfileId ∨
              extensionProfile m = kTwoByteExtensionProfileId
          · rw [assignments, if_pos ⟨hheader, hpad, hext, hfits, hknown⟩]
            exact recordExtensions_value p.exts hknown
          · rw [assignments_eq_nil fun h ↦ hknown h.2.2.2.2, recordExtensions,
              if_pos (not_or.mp hknown)]
            rfl
        · rw [if_neg hfits, assignments_eq_nil fun h ↦ hfits h.2.2.2.1]
          rfl
      · rw [if_neg hext, finish_exts, assignments_eq_nil fun h ↦ hext h.2.2.1]
        rfl
  · rw [(parse_early p data hheader).2, assignments_eq_nil fun h ↦ hheader h.1]
    rfl

variable (m size) in
/-- Every entry has an id of its own and a range inside the extension block, and no element
that overruns the block is recorded. -/
structure Confined (p : RTPPacket) : Prop where
  id_ne_zero : ∀ (k : UInt16) (e : RTPExtension), p.exts[k]? = some e → e.id ≠ kPaddingId
  id_ne_reserved : extensionProfile m = kOneByteExtensionProfileId →
    ∀ (k : UInt16) (e : RTPExtension), p.exts[k]? = some e →
      e.id ≠ kOneByteHeaderExtensionReservedId
  inside : ∀ (k : UInt16) (e : RTPExtension), p.exts[k]? = some e →
    headerSize m + 4 ≤ e.data ∧
      e.data + e.length.toNat ≤ headerSize m + 4 + extensionCapacity m
  fits : ∀ r ∈ assignments m size,
    r.pos + extensionHeaderLength (extensionProfile m) + r.ext.length.toNat ≤ extensionCapacity m

theorem confined_iff_legal (raw : RTPPacket) (now : UInt64) (data : ℕ) :
    Confined m size (received raw now data size m) ↔
      ∀ r ∈ assignments m size, r.Legal (extensionProfile m) (extensionCapacity m) := by
  have hexts : (received raw now data size m).exts =
      (assignments m size).foldl Recording.assign ∅ := parse_assignments (raw.create now) data
  constructor
  · intro h r hr
    obtain ⟨k, e, he, hid⟩ := exists_entry hr
    rw [← hexts] at he
    exact ⟨hid ▸ h.id_ne_zero k e he, fun ho ↦ hid ▸ h.id_ne_reserved ho k e he, h.fits r hr⟩
  · intro h
    have hentry (k : UInt16) (e : RTPExtension)
        (he : (received raw now data size m).exts[k]? = some e) :
        ∃ r ∈ assignments m size, r.ext = e := by
      rw [hexts] at he
      rcases exists_of_foldl_assign he with ⟨r, hr, hre, -⟩ | hnone
      · exact ⟨r, hr, hre⟩
      · simp at hnone
    refine ⟨fun k e he ↦ ?_, fun ho k e he ↦ ?_, fun k e he ↦ ?_, fun r hr ↦ (h r hr).fits⟩
    · obtain ⟨r, hr, rfl⟩ := hentry k e he
      exact (h r hr).id_ne_zero
    · obtain ⟨r, hr, rfl⟩ := hentry k e he
      exact (h r hr).id_ne_reserved ho
    · obtain ⟨r, hr, rfl⟩ := hentry k e he
      have hfits := (h r hr).fits
      rw [data_eq hr]
      omega

/-- The entries stay inside their block exactly if `Parse` does not come to the elements, or
meets none that is reserved or overruns the block: each of these is recorded before it is
rejected. -/
theorem confined_iff_tidy (raw : RTPPacket) (now : UInt64) (data size : ℕ) (m : Memory) :
    Confined m size (received raw now data size m) ↔ (Walked m size →
      Tidy m (extensionProfile m) (headerSize m + 4) (extensionCapacity m) 0) := by
  rw [confined_iff_legal]
  by_cases hwalked : Walked m size
  · rw [assignments, if_pos hwalked, ← tidy_iff, imp_iff_right hwalked]
  · rw [assignments_eq_nil hwalked]
    simp [hwalked]

def oneByteBlock (b₀ b₁ b₂ b₃ : UInt8) : Memory := ofList
  [0x90, 96, 0, 1, 0, 0, 0, 0, 0, 0, 0, 7, 0xBE, 0xDE, 0, 1, b₀, b₁, b₂, b₃]

/-- The reserved id, the padding id with a length, and sixteen bytes of data in a block of
four. -/
theorem offending_recorded :
    (received default 1 0 20 (oneByteBlock 0xF0 0xAA 0 0)).exts[(15 : UInt16)]? =
      some ⟨15, 1, 17⟩ ∧
    (received default 1 0 20 (oneByteBlock 0x01 0xAA 0xBB 0)).exts[(0 : UInt16)]? =
      some ⟨0, 2, 17⟩ ∧
    (received default 1 0 20 (oneByteBlock 0x2F 0xAA 0xBB 0xCC)).exts[(2 : UInt16)]? =
      some ⟨2, 16, 17⟩ ∧
    ¬ Confined (oneByteBlock 0xF0 0xAA 0 0) 20
      (received default 1 0 20 (oneByteBlock 0xF0 0xAA 0 0)) ∧
    ¬ Confined (oneByteBlock 0x01 0xAA 0xBB 0) 20
      (received default 1 0 20 (oneByteBlock 0x01 0xAA 0xBB 0)) ∧
    ¬ Confined (oneByteBlock 0x2F 0xAA 0xBB 0xCC) 20
      (received default 1 0 20 (oneByteBlock 0x2F 0xAA 0xBB 0xCC)) := by
  have hreserved : (received default 1 0 20 (oneByteBlock 0xF0 0xAA 0 0)).exts[(15 : UInt16)]? =
      some ⟨15, 1, 17⟩ := by decide +kernel
  have hzero : (received default 1 0 20 (oneByteBlock 0x01 0xAA 0xBB 0)).exts[(0 : UInt16)]? =
      some ⟨0, 2, 17⟩ := by decide +kernel
  have hoverrun :
      (received default 1 0 20 (oneByteBlock 0x2F 0xAA 0xBB 0xCC)).exts[(2 : UInt16)]? =
        some ⟨2, 16, 17⟩ := by decide +kernel
  refine ⟨hreserved, hzero, hoverrun, fun h ↦ ?_, fun h ↦ ?_, fun h ↦ ?_⟩
  · exact h.id_ne_reserved (by decide) 15 _ hreserved rfl
  · exact h.id_ne_zero 0 _ hzero rfl
  · exact absurd (h.inside 2 _ hoverrun).2 (by decide)

end Spadia.Rtp.Recorded
