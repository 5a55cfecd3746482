import Spadia.Peer.Connection
import Spadia.Stun.Attributes

namespace Spadia.Peer.StunPath

open Foundation TracedRead Read ByteBuffer Wire.ByteOrder Stun.Packet Connection PeerConnection
open Stun.Attributes

variable {m : Memory}

/-- Some attribute from index `i` on declares a value that ends behind the datagram. -/
def overruns (m : Memory) (size i : ℕ) : Bool :=
  if i + 4 ≤ size then
    if i + 4 + valueLength m i > size then true
    else overruns m size (i + 4 + (valueLength m i + 3) / 4 * 4)
  else false
termination_by size - i

theorem isSome_attributeLoop {size : ℕ} (name : List UInt8) (i : ℕ)
    (h : overruns m size i = false) : ((attributeLoop size name i).value m).isSome := by
  induction i using overruns.induct m size generalizing name with
  | case1 i hi hlen =>
    rw [overruns, if_pos hi, if_pos hlen] at h
    cases h
  | case2 i hi hlen ih =>
    rw [overruns, if_pos hi, if_neg hlen] at h
    by_cases hlt : i + 4 < size
    · rw [attributeLoop_round hlt, if_neg hlen, next, pad32_valueLength]
      exact ih _ h
    · rw [attributeLoop_stop hlt]
      rfl
  | case3 i hi =>
    rw [attributeLoop_stop (by omega)]
    rfl

theorem isSome_parse {size : ℕ} (h : overruns m size 20 = false) :
    ((parse size).value m).isSome := by
  simp only [parse, value_bind, value_pure, Option.isSome_map]
  exact isSome_attributeLoop [] stunHeaderSize h

theorem size_le_of_parse_inside {size : ℕ} (h : Inside size (parse size) m) : 20 ≤ size := by
  simp only [parse, inside_bind, inside_array] at h
  omega

variable (hmac : Hmac) (env : Environment) (pc : PeerConnection) (data size : ℕ)
variable (rmtSock : Address)

/-- The STUN branch stays inside of the datagram, never goes through a null pointer, and
drops what is too short or has an attribute that overruns. -/
structure StunSafe (m : Memory) : Prop where
  classify_inside : Inside size isStun m
  branch_inside : isStun.value m = true →
    Inside size (handleStun hmac (touched env pc rmtSock) size) m
  not_null : ((onSocketData hmac env pc data size rmtSock).value m).fault ≠ some .nullStunPacket
  dropped : isStun.value m = true → size < 20 ∨ overruns m size 20 = true →
    ((onSocketData hmac env pc data size rmtSock).value m).effects = []

theorem handleStun_inside :
    Inside size (handleStun hmac pc size) m ↔ Inside size (parse size) m := by
  simp only [handleStun, inside_bind]
  cases (parse size).value m <;> simp

theorem stunSafe_of_media (hinside : Inside size isStun m)
    (h : ¬ ((m 0 = 0 ∨ m 0 = 1) ∧ m 1 = 1)) : StunSafe hmac env pc data size rmtSock m := by
  have hstun : isStun.value m = false := by rwa [← Bool.not_eq_true, isStun_value]
  have hreaction := onSocketData_reaction hmac env pc data size rmtSock m
  refine ⟨hinside, by simp [hstun], ?_, by simp [hstun]⟩
  generalize (onSocketData hmac env pc data size rmtSock).value m = outcome at hreaction
  cases hreaction with
  | null htrue => simp [hstun] at htrue
  | reply htrue => simp [hstun] at htrue
  | rtcp _ _ hfault => rcases hfault with rfl | rfl <;> simp
  | unanswered => simp
  | rtp => simp only; split <;> simp

theorem stunSafe_of_complete (hsize : 20 ≤ size) (h : overruns m size 20 = false) :
    StunSafe hmac env pc data size rmtSock m := by
  by_cases hstun : (m 0 = 0 ∨ m 0 = 1) ∧ m 1 = 1
  · obtain ⟨p, hp⟩ := Option.isSome_iff_exists.mp (isSome_parse h)
    refine ⟨isStun_inside.mpr (by omega), fun _ ↦ (handleStun_inside ..).mpr (parse_inside hsize),
      ?_, ?_⟩
    · rw [onSocketData_reply _ _ _ _ _ _ (isStun_value.mpr hstun) hp]
      simp
    · intro _ hbad
      rw [h] at hbad
      simp at hbad
      omega
  · exact stunSafe_of_media _ _ _ _ _ _ (isStun_inside.mpr (by omega)) hstun

theorem stunSafe_iff {m : Memory} (hsize : 1 ≤ size) :
    StunSafe hmac env pc data size rmtSock m ↔
      ¬ (m 0 = 0 ∨ m 0 = 1) ∨ (2 ≤ size ∧ m 1 ≠ 1) ∨
        (20 ≤ size ∧ overruns m size 20 = false) := by
  constructor
  · intro hsafe
    by_cases h₀ : m 0 = 0 ∨ m 0 = 1
    · have h2 : 1 < size := (isStun_inside.mp hsafe.classify_inside).2 h₀
      by_cases h₁ : m 1 = 1
      · have hstun : isStun.value m = true := isStun_value.mpr ⟨h₀, h₁⟩
        have h20 := size_le_of_parse_inside
          ((handleStun_inside ..).mp (hsafe.branch_inside hstun))
        refine .inr (.inr ⟨h20, ?_⟩)
        by_contra hover
        have hdropped := hsafe.dropped hstun (.inr (Bool.eq_true_of_not_eq_false hover))
        have hnull := hsafe.not_null
        -- An overrun is either found, and the null result used, or missed, and answered.
        cases hp : (parse size).value m with
        | none =>
          rw [onSocketData_null _ _ _ _ _ _ hstun hp] at hnull
          exact hnull rfl
        | some p =>
          rw [onSocketData_reply _ _ _ _ _ _ hstun hp] at hdropped
          cases hdropped
      · exact .inr (.inl ⟨h2, h₁⟩)
    · exact .inl h₀
  · intro h
    rcases h with h₀ | ⟨h2, h₁⟩ | ⟨h20, hover⟩
    · exact stunSafe_of_media _ _ _ _ _ _ (isStun_inside.mpr ⟨hsize, fun h ↦ absurd h h₀⟩)
        fun h ↦ h₀ h.1
    · exact stunSafe_of_media _ _ _ _ _ _ (isStun_inside.mpr ⟨hsize, fun _ ↦ h2⟩) fun h ↦ h₁ h.2
    · exact stunSafe_of_complete _ _ _ _ _ _ h20 hover

/-- A Binding request of 28 bytes with the user name `abcd`, for a connection with a password. -/
def wholeUsername : Memory := ofList
  [0, 1, 0, 8, 0x21, 0x12, 0xA4, 0x42, 1, 2, 3, 4, 5, 6, 7, 8, 9, 10, 11, 12,
    0, 6, 0, 4, 97, 98, 99, 100]

def keyed : PeerConnection := { (default : PeerConnection) with localPassword := [112, 119, 100] }

theorem wholeUsername_stunSafe : isStun.value wholeUsername = true ∧
    StunSafe default default keyed 0 28 5 wholeUsername := by
  have hwhole : overruns wholeUsername 28 20 = false := by decide +kernel
  refine ⟨by decide, (stunSafe_iff _ _ _ _ _ _ (by decide)).mpr (.inr (.inr ⟨by decide, hwhole⟩))⟩

/-- A Binding request of 28 bytes with a user name that claims 16 bytes and has four. -/
def cutUsername : Memory := ofList
  [0, 1, 0, 8, 0x21, 0x12, 0xA4, 0x42, 1, 2, 3, 4, 5, 6, 7, 8, 9, 10, 11, 12,
    0, 6, 0, 16, 97, 98, 99, 100]

theorem cutUsername_not_stunSafe :
    ((onSocketData default default default 0 28 0).value cutUsername).fault =
      some .nullStunPacket ∧
    ¬ StunSafe default default default 0 28 0 cutUsername := by
  have hfault : ((onSocketData default default default 0 28 0).value cutUsername).fault =
      some .nullStunPacket := by decide +kernel
  exact ⟨hfault, fun h ↦ h.not_null hfault⟩

end Spadia.Peer.StunPath
