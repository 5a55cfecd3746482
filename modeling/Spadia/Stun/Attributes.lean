import Mathlib.Logic.Function.Iterate
import Spadia.Stun.Packet

namespace Spadia.Stun.Attributes

open Foundation TracedRead Read ByteBuffer Wire.ByteOrder Packet

def valueLength (m : Memory) (i : ℕ) : ℕ := (be16 (m (i + 2)) (m (i + 3))).toNat

theorem pad32_valueLength (m : Memory) (i : ℕ) :
    (pad32 (be16 (m (i + 2)) (m (i + 3))).toUInt32).toNat = (valueLength m i + 3) / 4 * 4 := by
  have hlt := (be16 (m (i + 2)) (m (i + 3))).toNat_lt
  rw [pad32_toNat (by rw [UInt16.toNat_toUInt32]; omega), UInt16.toNat_toUInt32, valueLength]

/-- An attribute of a message: a value and the padding behind it, whatever that is. -/
structure Attribute where
  type : UInt16
  value : List UInt8
  padding : List UInt8
  length_value : value.length < 65536
  length_padding : padding.length < 4
  aligned : (value.length + padding.length) % 4 = 0

namespace Attribute

def encode (a : Attribute) : List UInt8 :=
  writeBE16 a.type ++ writeBE16 (UInt16.ofNat a.value.length) ++ a.value ++ a.padding

def isUsername (a : Attribute) : Bool := a.type = username

theorem length_encode (a : Attribute) :
    a.encode.length = 4 + (a.value.length + a.padding.length) := by
  simp [encode]
  omega

end Attribute

def encodeAll (attrs : List Attribute) : List UInt8 := attrs.flatMap Attribute.encode

theorem encodeAll_cons (a : Attribute) (attrs : List Attribute) :
    encodeAll (a :: attrs) = a.encode ++ encodeAll attrs := List.flatMap_cons

/-- The value of the first user name, or `name` if there is none. -/
def firstName (name : List UInt8) : List Attribute → List UInt8
  | [] => name
  | a :: attrs => if a.isUsername then a.value else firstName name attrs

/-- The index behind the attribute at `i`. -/
def next (m : Memory) (i : ℕ) : ℕ := i + 4 + (pad32 (be16 (m (i + 2)) (m (i + 3))).toUInt32).toNat

section Walk

variable {m : Memory} {size : ℕ}

theorem attributeLoop_round {name : List UInt8} {i : ℕ} (hi : i + 4 < size) :
    (attributeLoop size name i).value m =
      if i + 4 + valueLength m i > size then none
      else (attributeLoop size ((readName (be16 (m i) (m (i + 1))) (i + 4) (valueLength m i)
        name).value m) (next m i)).value m := by
  have hlt : (i : ℤ) + 4 < size := by omega
  rw [attributeLoop, dif_pos hlt]
  simp only [value_bind, value_readBE16, value_ite, value_pure, attrHeaderSize, Nat.add_assoc i 2 1,
    Nat.reduceAdd]
  refine if_congr ?_ rfl rfl
  simp only [valueLength, Nat.reduceAdd]
  omega

theorem attributeLoop_stop {name : List UInt8} {i : ℕ} (hi : ¬ i + 4 < size) :
    (attributeLoop size name i).value m = some name := by
  rw [attributeLoop, dif_neg (by omega)]
  rfl

theorem le_next (m : Memory) (i : ℕ) : i + 4 ≤ next m i := Nat.le_add_right _ _

theorem le_iterate_next (m : Memory) (i k : ℕ) : i ≤ (next m)^[k] i := by
  induction k generalizing i with
  | zero => exact le_refl i
  | succ k ih =>
    rw [Function.iterate_succ_apply]
    exact (Nat.le_of_lt (Nat.lt_of_lt_of_le (by omega) (le_next m i))).trans (ih _)

/-- The loop fails at the first attribute of the walk whose value ends behind the message. -/
theorem attributeLoop_eq_none_iff (name : List UInt8) (i : ℕ) :
    (attributeLoop size name i).value m = none ↔
      ∃ k, (next m)^[k] i + 4 < size ∧
        size < (next m)^[k] i + 4 + valueLength m ((next m)^[k] i) := by
  induction hn : size - i using Nat.strong_induction_on generalizing name i with
  | _ n ih =>
    by_cases hi : i + 4 < size
    · rw [attributeLoop_round hi]
      split
      case isTrue hover => exact iff_of_true rfl ⟨0, hi, hover⟩
      case isFalse hfits =>
        have hnext := le_next m i
        rw [ih (size - next m i) (by omega) _ (next m i) rfl]
        constructor
        · intro h
          obtain ⟨k, hk⟩ := h
          exact ⟨k + 1, hk⟩
        · intro h
          obtain ⟨k, hk⟩ := h
          cases k with
          | zero => exact absurd hk.2 hfits
          | succ k => exact ⟨k, hk⟩
    · rw [attributeLoop_stop hi]
      refine iff_of_false (by simp) ?_
      intro h
      obtain ⟨k, hk, -⟩ := h
      have hle := le_iterate_next m i k
      omega

theorem attributeLoop_inside (name : List UInt8) (i : ℕ) :
    Inside size (attributeLoop size name i) m := by
  induction hn : size - i using Nat.strong_induction_on generalizing name i with
  | _ n ih =>
    rw [attributeLoop]
    split
    case isTrue hi =>
      have hnext := le_next m i
      simp only [inside_bind, inside_readBE16, value_readBE16, attrHeaderSize, Nat.add_assoc i 2 1,
        Nat.reduceAdd]
      refine ⟨by omega, by omega, ?_⟩
      split
      · exact inside_pure _
      · refine (inside_bind _ _).mpr ⟨?_, ih (size - next m i) (by omega) _ _ rfl⟩
        rw [readName, inside_ite]
        exact ⟨fun _ ↦ (inside_block _ _).mpr (.inr (by omega)), fun _ ↦ inside_pure _⟩
    case isFalse => exact inside_pure _

theorem parse_inside (hsize : 20 ≤ size) : Inside size (parse size) m := by
  simp only [parse, inside_bind, inside_readBE16, inside_array, inside_pure, and_true]
  exact ⟨by omega, by omega, attributeLoop_inside _ _⟩

end Walk

section Grammar

variable {m : Memory} {size : ℕ} {i : ℕ} {a : Attribute}

theorem type_stored (h : Stores m i a.encode) : be16 (m i) (m (i + 1)) = a.type := by
  simp only [Attribute.encode, writeBE16, List.cons_append, List.nil_append, stores_cons] at h
  rw [h.1, h.2.1, be16_writeBE16]

theorem valueLength_stored (h : Stores m i a.encode) : valueLength m i = a.value.length := by
  simp only [Attribute.encode, writeBE16, List.cons_append, List.nil_append, stores_cons,
    Nat.add_assoc, Nat.reduceAdd] at h
  rw [valueLength, h.2.2.1, h.2.2.2.1, be16_writeBE16, UInt16.toNat_ofNat_of_lt' a.length_value]

theorem value_stored (h : Stores m i a.encode) :
    (block (i + 4) a.value.length).value m = a.value := by
  rw [Attribute.encode, List.append_assoc] at h
  have hvalue := ((stores_append _ _ _ _).mp h).2
  exact ((stores_append _ _ _ _).mp hvalue).1

theorem next_stored (h : Stores m i a.encode) : next m i = i + a.encode.length := by
  have hpad := a.length_padding
  have haligned := a.aligned
  rw [next, pad32_valueLength, valueLength_stored h, a.length_encode]
  omega

theorem firstName_of_none {name : List UInt8} {attrs : List Attribute}
    (h : attrs.countP Attribute.isUsername = 0) : firstName name attrs = name := by
  induction attrs with
  | nil => rfl
  | cons a attrs ih =>
    rw [List.countP_cons] at h
    have ha : ¬ a.isUsername := by
      intro ha
      simp [ha] at h
    rw [firstName, if_neg ha]
    exact ih (by omega)

/-- The loop over a list of attributes. An attribute at the very end of the message that has
no value is not looked at; as a user name it would leave the empty `name` as it is. -/
theorem attributeLoop_encodeAll {attrs : List Attribute} {name : List UInt8}
    (h : Stores m i (encodeAll attrs)) (hsize : i + (encodeAll attrs).length = size)
    (hone : attrs.countP Attribute.isUsername ≤ 1)
    (hname : attrs.countP Attribute.isUsername = 1 → name = []) :
    (attributeLoop size name i).value m = some (firstName name attrs) := by
  induction attrs generalizing i name with
  | nil =>
    rw [encodeAll, List.flatMap_nil, List.length_nil] at hsize
    exact attributeLoop_stop (by omega)
  | cons a attrs ih =>
    rw [encodeAll_cons] at h hsize
    obtain ⟨ha, hrest⟩ := (stores_append _ _ _ _).mp h
    have hlength := a.length_encode
    rw [List.length_append] at hsize
    rw [List.countP_cons] at hone hname
    by_cases hi : i + 4 < size
    · rw [attributeLoop_round hi, if_neg (by rw [valueLength_stored ha]; omega), type_stored ha,
        valueLength_stored ha, next_stored ha, readName, value_ite, value_stored ha, value_pure,
        firstName]
      by_cases hu : a.isUsername
      · rw [if_pos hu] at hone
        have hnone : attrs.countP Attribute.isUsername = 0 := by omega
        have htype : a.type = username := by simpa [Attribute.isUsername] using hu
        rw [if_pos htype, if_pos hu, ih hrest (by omega) (by omega) (by omega),
          firstName_of_none hnone]
      · have htype : ¬ a.type = username := by simpa [Attribute.isUsername] using hu
        rw [if_neg hu, Nat.add_zero] at hone hname
        rw [if_neg htype, if_neg hu]
        exact ih hrest (by omega) hone hname
    · have hvalue : a.value = [] := List.length_eq_zero_iff.mp (by omega)
      have hnil : attrs = [] := by
        cases attrs with
        | nil => rfl
        | cons b attrs =>
          have hb := b.length_encode
          rw [encodeAll_cons, List.length_append] at hsize
          omega
      subst hnil
      rw [attributeLoop_stop hi, firstName]
      by_cases hu : a.isUsername
      · rw [if_pos hu] at hname
        rw [if_pos hu, hvalue, hname rfl]
      · rw [if_neg hu]
        rfl

theorem attributeLoop_accepts {attrs : List Attribute} (h : Stores m i (encodeAll attrs))
    (hsize : i + (encodeAll attrs).length = size) (name : List UInt8) :
    ∃ name', (attributeLoop size name i).value m = some name' := by
  induction attrs generalizing i name with
  | nil =>
    rw [encodeAll, List.flatMap_nil, List.length_nil] at hsize
    exact ⟨name, attributeLoop_stop (by omega)⟩
  | cons a attrs ih =>
    rw [encodeAll_cons] at h hsize
    obtain ⟨ha, hrest⟩ := (stores_append _ _ _ _).mp h
    have hlength := a.length_encode
    rw [List.length_append] at hsize
    by_cases hi : i + 4 < size
    · rw [attributeLoop_round hi, if_neg (by rw [valueLength_stored ha]; omega), next_stored ha]
      exact ih hrest (by omega) _
    · exact ⟨name, attributeLoop_stop hi⟩

theorem parse_accepts {header : List UInt8} {attrs : List Attribute} (hheader : header.length = 20)
    (h : Stores m 0 (header ++ encodeAll attrs)) :
    ∃ p, (parse (header ++ encodeAll attrs).length).value m = some p := by
  obtain ⟨-, hattrs⟩ := (stores_append _ _ _ _).mp h
  rw [Nat.zero_add, hheader] at hattrs
  have hsize : 20 + (encodeAll attrs).length = (header ++ encodeAll attrs).length := by
    rw [List.length_append, hheader]
  obtain ⟨name, hname⟩ := attributeLoop_accepts hattrs hsize []
  simp only [parse, value_bind, value_pure, stunHeaderSize, hname, Option.map_some]
  exact ⟨_, rfl⟩

theorem header_stored {header : Vector UInt8 20} (h : Stores m 0 header.toList) (j : ℕ)
    (hj : j < 20) : m j = header.get ⟨j, hj⟩ := by
  have hget := h.getElem (j := j) (by simpa using hj)
  simp only [Nat.zero_add, Vector.getElem_toList] at hget
  exact hget

theorem parse_message {header : Vector UInt8 20} {attrs : List Attribute}
    (h : Stores m 0 (header.toList ++ encodeAll attrs))
    (hone : attrs.countP Attribute.isUsername ≤ 1) :
    (parse (header.toList ++ encodeAll attrs).length).value m =
      some
        { username := firstName [] attrs
          method := be16 (header.get 0) (header.get 1) &&& 0xFEEF
          type := be16 (header.get 0) (header.get 1) &&& 0x0110
          transId := Vector.ofFn fun j ↦ header.get (Fin.natAdd 8 j) } := by
  obtain ⟨hheader, hattrs⟩ := (stores_append _ _ _ _).mp h
  have hbyte := header_stored hheader
  have hloop : (attributeLoop (header.toList ++ encodeAll attrs).length [] stunHeaderSize).value m =
      some (firstName [] attrs) := by
    have hattrs' : Stores m 20 (encodeAll attrs) := by simpa using hattrs
    refine attributeLoop_encodeAll hattrs' ?_ hone fun _ ↦ rfl
    rw [List.length_append, Vector.length_toList]
    rfl
  have htransId : (array 8 12).value m = Vector.ofFn fun j ↦ header.get (Fin.natAdd 8 j) := by
    refine congrArg Vector.ofFn (funext fun j ↦ ?_)
    exact hbyte (8 + j) (by omega)
  simp only [parse, value_bind, value_pure, hloop, htransId, value_readBE16, Option.map_some,
    hbyte 0 (by decide), hbyte (0 + 1) (by decide)]
  rfl

theorem exists_parse {header : List UInt8} {attrs : List Attribute} (hheader : header.length = 20)
    (h : Stores m 0 (header ++ encodeAll attrs))
    (hone : attrs.countP Attribute.isUsername ≤ 1) :
    ∃ p, (parse (header ++ encodeAll attrs).length).value m = some p ∧
      p.username = firstName [] attrs := by
  obtain ⟨v, rfl⟩ : ∃ v : Vector UInt8 20, v.toList = header :=
    ⟨⟨header.toArray, by simp [hheader]⟩, by simp⟩
  exact ⟨_, parse_message h hone, rfl⟩

end Grammar

/-- The bytes of a message behind its header are its attributes, and the walk over any bytes
fails exactly at a value that does not fit. The last part gives the sizes for which the sums of
the walk are `int`s. -/
theorem parse_follows_grammar :
    (∀ (header : Vector UInt8 20) (attrs : List Attribute) (m : Memory),
      attrs.countP Attribute.isUsername ≤ 1 → Stores m 0 (header.toList ++ encodeAll attrs) →
      ∃ p, (parse (header.toList ++ encodeAll attrs).length).value m = some p ∧
        p.transId.toList = header.toList.drop 8 ∧ p.username = firstName [] attrs) ∧
    ∀ (m : Memory) (size : ℕ), 20 ≤ size →
      ((parse size).value m = none ↔ ∃ k, (next m)^[k] 20 + 4 < size ∧
        size < (next m)^[k] 20 + 4 + valueLength m ((next m)^[k] 20)) ∧
      Inside size (parse size) m ∧
      (size ≤ 2 ^ 31 - 65536 → ∀ k, (next m)^[k] 20 + 4 < size →
        (next m)^[k] 20 + 4 + valueLength m ((next m)^[k] 20) < 2 ^ 31) := by
  refine ⟨fun header attrs m hone h ↦ ⟨_, parse_message h hone, ?_, rfl⟩,
    fun m size hsize ↦ ⟨?_, parse_inside hsize, fun hint k hk ↦ ?_⟩⟩
  · apply List.ext_getElem
    · simp
    · intro j hj hj'
      simp
      rfl
  · rw [← attributeLoop_eq_none_iff []]
    simp only [parse, value_bind, value_pure, Option.map_eq_none_iff]
    rfl
  · have hlt : valueLength m ((next m)^[k] 20) < 65536 := UInt16.toNat_lt _
    omega

/-- The header of a Binding request with 16 bytes of attributes. -/
def requestHeader : Vector UInt8 20 :=
  #v[0, 1, 0, 16, 0x21, 0x12, 0xA4, 0x42, 1, 2, 3, 4, 5, 6, 7, 8, 9, 10, 11, 12]

/-- A priority and the user name `a:b`, which has one byte of padding. -/
def named : List Attribute :=
  [⟨0x0024, [1, 2, 3, 4], [], by decide, by decide, by decide⟩,
    ⟨username, [97, 58, 98], [0xFF], by decide, by decide, by decide⟩]

theorem named_parsed : named.countP Attribute.isUsername ≤ 1 ∧
    ∃ p, (parse 36).value (ofList (requestHeader.toList ++ encodeAll named)) = some p ∧
      p.transId.toList = [1, 2, 3, 4, 5, 6, 7, 8, 9, 10, 11, 12] ∧ p.username = [97, 58, 98] :=
  ⟨by decide, parse_follows_grammar.1 requestHeader named _ (by decide) (by decide)⟩

end Spadia.Stun.Attributes
