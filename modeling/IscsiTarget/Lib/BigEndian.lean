import Mathlib

/-!
# Numbers in big-endian bytes

`ofBytes` is the number that a list of bytes stands for, the most significant byte first.
Code puts such a number together with shifts and `|`, one byte after the other. That comes to
the same because the pieces do not overlap (`ofBytes_cons_or`), and nothing is lost as long
as the word is wide enough (`byte_shiftLeft_mod`).
-/

namespace BigEndian

/-- The number with these bytes. -/
def ofBytes : List UInt8 → ℕ
  | [] => 0
  | b :: bs => b.toNat * 2 ^ (8 * bs.length) + ofBytes bs

theorem ofBytes_lt (bs : List UInt8) : ofBytes bs < 2 ^ (8 * bs.length) := by
  induction bs with
  | nil => exact Nat.one_pos
  | cons b bs ih =>
    have h_b : b.toNat + 1 ≤ 2 ^ 8 := b.toNat_lt
    rw [ofBytes, List.length_cons, Nat.mul_succ, pow_add]
    calc b.toNat * 2 ^ (8 * bs.length) + ofBytes bs
        < b.toNat * 2 ^ (8 * bs.length) + 2 ^ (8 * bs.length) := Nat.add_lt_add_left ih _
      _ = (b.toNat + 1) * 2 ^ (8 * bs.length) := (Nat.succ_mul _ _).symm
      _ ≤ 2 ^ 8 * 2 ^ (8 * bs.length) := Nat.mul_le_mul_right _ h_b
      _ = 2 ^ (8 * bs.length) * 2 ^ 8 := Nat.mul_comm _ _

/-- The first byte is above all the others. -/
theorem ofBytes_cons_or (b : UInt8) (bs : List UInt8) :
    ofBytes (b :: bs) = b.toNat <<< (8 * bs.length) ||| ofBytes bs := by
  rw [← Nat.shiftLeft_add_eq_or_of_lt (ofBytes_lt bs), Nat.shiftLeft_eq, ofBytes]

/-- A byte that stays inside the word. -/
theorem byte_shiftLeft_mod {b : UInt8} {i w : ℕ} (h : 8 + i ≤ w) :
    b.toNat <<< i % 2 ^ w = b.toNat <<< i := by
  apply Nat.mod_eq_of_lt
  rw [Nat.shiftLeft_eq]
  calc b.toNat * 2 ^ i < 2 ^ 8 * 2 ^ i := Nat.mul_lt_mul_of_pos_right b.toNat_lt (by positivity)
    _ = 2 ^ (8 + i) := (pow_add 2 8 i).symm
    _ ≤ 2 ^ w := Nat.pow_le_pow_right (by decide) h

/-- As many bytes with the same value are the same bytes. Of other lengths they
need not be, since there may be zeros in front. -/
theorem ofBytes_inj {as bs : List UInt8} (h_len : as.length = bs.length) :
    ofBytes as = ofBytes bs ↔ as = bs := by
  refine ⟨fun h => ?_, congrArg ofBytes⟩
  induction as generalizing bs with
  | nil => exact (List.length_eq_zero_iff.mp h_len.symm).symm
  | cons a as ih =>
    obtain ⟨b, bs, rfl⟩ := List.exists_cons_of_length_eq_add_one h_len.symm
    have h_len' : as.length = bs.length := Nat.succ_injective h_len
    rw [ofBytes, ofBytes, h_len'] at h
    have h_as := ofBytes_lt as
    have h_bs := ofBytes_lt bs
    rw [h_len'] at h_as
    have h_pos : 0 < 2 ^ (8 * bs.length) := by positivity
    have h_head : a.toNat = b.toNat := by
      have h_div := congrArg (· / 2 ^ (8 * bs.length)) h
      rwa [Nat.add_comm, Nat.add_mul_div_right _ _ h_pos, Nat.div_eq_of_lt h_as, Nat.zero_add,
        Nat.add_comm, Nat.add_mul_div_right _ _ h_pos, Nat.div_eq_of_lt h_bs, Nat.zero_add] at h_div
    rw [h_head] at h
    rw [UInt8.toNat.inj h_head, ih h_len' (Nat.add_left_cancel h)]

/-! ### Two's complement -/

/-- The integer with these bytes in two's complement. -/
def signed (bs : List UInt8) : ℤ :=
  if 128 ≤ bs.headD 0 then (ofBytes bs : ℤ) - 2 ^ (8 * bs.length) else ofBytes bs

theorem signed_of_lt {bs : List UInt8} (h : bs.headD 0 < 128) : signed bs = ofBytes bs :=
  if_neg (by rw [UInt8.le_iff_toNat_le]; exact Nat.not_le.mpr h)

theorem signed_of_le {bs : List UInt8} (h : 128 ≤ bs.headD 0) :
    signed bs = (ofBytes bs : ℤ) - 2 ^ (8 * bs.length) :=
  if_pos h

/-- Below zero, with the sign bit. -/
theorem signed_neg {bs : List UInt8} (h : 128 ≤ bs.headD 0) : signed bs < 0 := by
  have h_lt := ofBytes_lt bs
  have h_cast : (ofBytes bs : ℤ) < 2 ^ (8 * bs.length) := by exact_mod_cast h_lt
  rw [signed_of_le h]
  omega

/-- The sign bit is the highest bit of the value. The number is negative when it
is set, by one more than what the bits can hold. -/
theorem signed_eq {bs : List UInt8} (h : bs ≠ []) :
    signed bs =
      if 2 ^ (8 * bs.length - 1) ≤ ofBytes bs then (ofBytes bs : ℤ) - 2 ^ (8 * bs.length)
      else ofBytes bs := by
  obtain ⟨b, bs, rfl⟩ := List.exists_cons_of_ne_nil h
  have h_lt := ofBytes_lt bs
  have h_pow : 2 ^ (8 * (b :: bs).length - 1) = 128 * 2 ^ (8 * bs.length) := by
    rw [List.length_cons, show 8 * (bs.length + 1) - 1 = 7 + 8 * bs.length by omega, pow_add]
    norm_num
  have h_iff : 128 ≤ b ↔ 2 ^ (8 * (b :: bs).length - 1) ≤ ofBytes (b :: bs) := by
    rw [UInt8.le_iff_toNat_le, h_pow, ofBytes]
    show 128 ≤ b.toNat ↔ _
    constructor
    · intro h_b
      exact (Nat.mul_le_mul_right _ h_b).trans (Nat.le_add_right _ _)
    · intro h_le
      by_contra h_b
      have h_succ : (b.toNat + 1) * 2 ^ (8 * bs.length) ≤ 128 * 2 ^ (8 * bs.length) :=
        Nat.mul_le_mul_right _ (by omega)
      rw [Nat.add_mul, Nat.one_mul] at h_succ
      omega
  unfold signed
  exact if_congr h_iff rfl rfl

theorem ofBytes_append_singleton (bs : List UInt8) (b : UInt8) :
    ofBytes (bs ++ [b]) = ofBytes bs * 256 + b.toNat := by
  induction bs with
  | nil =>
    show b.toNat * 2 ^ (8 * 0) + 0 = 0 * 256 + b.toNat
    ring
  | cons a bs ih =>
    rw [List.cons_append, ofBytes, ofBytes, ih, List.length_append, List.length_singleton]
    ring

end BigEndian
