import IscsiTarget.Commands.Forms

/-!
# LUNs and their numbers

`encode_lun` writes a LUN number into eight bytes in one of three formats, and `get_LUN_nr`
reads eight bytes as one native word. `fieldValue` is the number the second makes of what the
first has written (`value_encodeLun`). Eight bytes are determined by that number, so two LUN
numbers share their bytes exactly when they share it (`encodeLun_eq_iff`).

Only the third format is the one that is read, and the bytes of the other two are taken by
numbers of the third as well: `lun_iff`.
-/

namespace IscsiTarget

open BigEndian

/-- The number `get_LUN_nr` makes of what `encode_lun` writes for `n`. -/
def fieldValue (n : ℕ) : ℕ :=
  if n < 256 then 256 * n
  else if n < 0x4000 then 1 + 256 * (n / 256) + 65536 * (n % 256)
  else n

theorem length_encodeLun (n : UInt64) : (encodeLun n).length = 8 := by
  unfold encodeLun
  split
  · rfl
  · split <;> rfl

/-- The first byte of the field is the lowest of the word. -/
theorem getLunNr_toNat (h : Header) : h.getLunNr.toNat = ofBytes h.getLun.reverse :=
  toNat_getUint64 h[15] h[14] h[13] h[12] h[11] h[10] h[9] h[8]

theorem value_encodeLun (n : UInt64) : ofBytes (encodeLun n).reverse = fieldValue n.toNat := by
  have h_256 : n < 256 ↔ n.toNat < 256 := UInt64.lt_iff_toNat_lt
  have h_4000 : n < 0x4000 ↔ n.toNat < 0x4000 := UInt64.lt_iff_toNat_lt
  have h_lt := n.toNat_lt
  unfold encodeLun fieldValue
  simp only [h_256, h_4000]
  split
  · -- peripheral: the number is in the second byte
    change ofBytes [0, 0, 0, 0, 0, 0, byteAt _ 0, 0] = _
    simp only [ofBytes, List.length_cons, List.length_nil, toNat_byteAt, UInt8.toNat_zero]
    omega
  · split
    · -- flat: a 1, and the number in the two bytes behind it
      change ofBytes [0, 0, 0, 0, 0, byteAt _ 0, byteAt _ 8, 1] = _
      simp only [ofBytes, List.length_cons, List.length_nil, toNat_byteAt, UInt8.toNat_zero,
        UInt8.toNat_one]
      omega
    · rw [List.reverse_reverse]
      change ofBytes [byteAt _ 56, byteAt _ 48, byteAt _ 40, byteAt _ 32, byteAt _ 24, byteAt _ 16,
        byteAt _ 8, byteAt _ 0] = _
      simp only [ofBytes, List.length_cons, List.length_nil, toNat_byteAt]
      omega

theorem encodeLun_eq_iff (m n : UInt64) :
    encodeLun m = encodeLun n ↔ fieldValue m.toNat = fieldValue n.toNat := by
  have h_len : (encodeLun m).reverse.length = (encodeLun n).reverse.length := by
    rw [List.length_reverse, List.length_reverse, length_encodeLun, length_encodeLun]
  rw [← value_encodeLun, ← value_encodeLun, ofBytes_inj h_len, List.reverse_inj]

/-- The larger of two LUN numbers is written as it is, and its bytes are those
of the smaller one in the peripheral or the flat format. -/
def Clash (m n : ℕ) : Prop :=
  0x4000 ≤ n ∧
    (m < 256 ∧ n = 256 * m ∨
      256 ≤ m ∧ m < 0x4000 ∧ n = 1 + 256 * (m / 256) + 65536 * (m % 256))

instance (m n : ℕ) : Decidable (Clash m n) := inferInstanceAs (Decidable (_ ∧ _))

theorem fieldValue_eq_iff {m n : ℕ} (h : m < n) : fieldValue m = fieldValue n ↔ Clash m n := by
  unfold fieldValue Clash
  split
  · split
    · omega
    · split <;> omega
  · split
    · rw [if_neg (by omega)]
      split <;> omega
    · rw [if_neg (by omega), if_neg (by omega)]
      omega

/-- A LUN number below `2 ^ 14` comes back from the field only when it is 0, and
two LUN numbers have different bytes unless they clash. What is written byte by
byte, most significant first, is read as one word in the order of the machine. -/
theorem lun_iff (h : Header) (n : UInt64) (h_n : n < 0x4000) (h_field : h.getLun = encodeLun n)
    (m k : UInt64) (h_lt : m < k) :
    (h.getLunNr = n ↔ n = 0) ∧ (encodeLun m ≠ encodeLun k ↔ ¬Clash m.toNat k.toNat) := by
  constructor
  · have h_lt : n.toNat < 0x4000 := UInt64.lt_iff_toNat_lt.mp h_n
    have h_value : h.getLunNr.toNat = fieldValue n.toNat := by
      rw [getLunNr_toNat, h_field, value_encodeLun]
    rw [← UInt64.toNat_inj, h_value, ← UInt64.toNat_inj, UInt64.toNat_zero]
    unfold fieldValue
    rw [if_pos h_lt]
    split <;> omega
  · rw [Ne, encodeLun_eq_iff, fieldValue_eq_iff (UInt64.lt_iff_toNat_lt.mp h_lt)]

/-- The header of a TEST UNIT READY with the LUN `n`, below 256, in the field. -/
def lunHeader (n : UInt8) : Header :=
  #v[0x01, 0x80, 0, 0, 0, 0, 0, 0, 0, n, 0, 0, 0, 0, 0, 0,
    5, 0, 0, 0, 0, 0, 0, 0, 0, 0, 0, 3, 0, 0, 0, 4,
    0, 0, 0, 0, 0, 0, 0, 0, 0, 0, 0, 0, 0, 0, 0, 0]

/-- The LUN 2 in a command does not come back, and the LUNs 1 and 2 have
different bytes. -/
theorem lun_two :
    ((lunHeader 2).getLunNr = 2 ↔ (2 : UInt64) = 0) ∧
      (encodeLun 1 ≠ encodeLun 2 ↔ ¬Clash 1 2) :=
  lun_iff (lunHeader 2) 2 (by decide) (by decide) 1 2 (by decide)

/-- LUN 1 comes back as 256, and the LUNs 64 and 16384 have the same bytes. -/
theorem lun_fails :
    (lunHeader 1).getLun = encodeLun 1 ∧ (lunHeader 1).getLunNr = 256 ∧
      encodeLun 64 = encodeLun 16384 :=
  ⟨by decide, by decide, by decide⟩

end IscsiTarget
