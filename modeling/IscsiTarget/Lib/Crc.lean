import Mathlib

/-!
# Reflected cyclic redundancy checks

The remainder of a message, one bit after the other, and the way it is computed in practice: a
byte at a time, from a table of 256 words. The width and the polynomial are any.

A step is linear in exclusive or (`polyStep_xor`), so `n` steps from a word are `n` steps from its
lowest `n` bits, and the rest of it moved down (`polySteps_split`). This is all that a table needs
to know: `foldl_tableStep`.
-/

namespace Crc

variable {w : ℕ} (poly : BitVec w)

/-- One bit of the message: the bit that leaves the remainder meets the bit of
the message, and the polynomial is taken off when they differ. -/
def bitStep (c : BitVec w) (b : Bool) : BitVec w :=
  if (c.getLsbD 0 ^^ b) = true then (c >>> 1) ^^^ poly else c >>> 1

/-- The lowest `n` bits of a number, the lowest one first. -/
def bits (n d : ℕ) : List Bool := (List.range n).map d.testBit

/-- The bits of a message, in the order they are sent. -/
def messageBits (data : List UInt8) : List Bool := data.flatMap fun d => bits 8 d.toNat

/-- The remainder of a message, from the remainder of what was before it. -/
def remainder (c : BitVec w) (data : List UInt8) : BitVec w :=
  (messageBits data).foldl (bitStep poly) c

/-- A remainder can be left and taken up again anywhere. -/
theorem remainder_append (c : BitVec w) (a b : List UInt8) :
    remainder poly c (a ++ b) = remainder poly (remainder poly c a) b := by
  unfold remainder messageBits
  rw [List.flatMap_append, List.foldl_append]

theorem remainder_cons (c : BitVec w) (d : UInt8) (data : List UInt8) :
    remainder poly c (d :: data) =
      remainder poly ((bits 8 d.toNat).foldl (bitStep poly) c) data := by
  unfold remainder messageBits
  rw [List.flatMap_cons, List.foldl_append]

/-! ### Steps without a message -/

/-- A step for the bit 0. -/
def polyStep (c : BitVec w) : BitVec w := bitStep poly c false

/-- `n` steps for bits 0. -/
def polySteps : ℕ → BitVec w → BitVec w
  | 0, c => c
  | n + 1, c => polySteps n (polyStep poly c)

/-- What a step takes off. -/
def taken (b : Bool) : BitVec w := if b = true then poly else 0

theorem bitStep_eq (c : BitVec w) (b : Bool) :
    bitStep poly c b = taken poly (c.getLsbD 0 ^^ b) ^^^ (c >>> 1) := by
  unfold bitStep taken
  split
  · exact BitVec.xor_comm _ _
  · exact BitVec.zero_xor.symm

theorem polyStep_eq (c : BitVec w) :
    polyStep poly c = taken poly (c.getLsbD 0) ^^^ (c >>> 1) := by
  rw [polyStep, bitStep_eq, Bool.xor_false]

theorem taken_xor (a b : Bool) : taken poly (a ^^ b) = taken poly a ^^^ taken poly b := by
  cases a <;> cases b <;> simp [taken]

theorem polyStep_xor (a b : BitVec w) :
    polyStep poly (a ^^^ b) = polyStep poly a ^^^ polyStep poly b := by
  rw [polyStep_eq, polyStep_eq, polyStep_eq, BitVec.getLsbD_xor, taken_xor,
    BitVec.ushiftRight_xor_distrib]
  ac_rfl

theorem polySteps_xor (n : ℕ) (a b : BitVec w) :
    polySteps poly n (a ^^^ b) = polySteps poly n a ^^^ polySteps poly n b := by
  induction n generalizing a b with
  | zero => rfl
  | succ n ih =>
    change polySteps poly n (polyStep poly (a ^^^ b)) = _
    rw [polyStep_xor, ih]
    rfl

/-! ### A byte at a time -/

/-- The lowest `n` bits of a word. -/
def low (n : ℕ) (c : BitVec w) : BitVec w := BitVec.ofNat w (c.toNat % 2 ^ n)

theorem getLsbD_low (n : ℕ) (c : BitVec w) (i : ℕ) :
    (low n c).getLsbD i = (decide (i < n) && c.getLsbD i) := by
  rw [low, BitVec.getLsbD_ofNat, Nat.testBit_mod_two_pow]
  by_cases h : i < w
  · simp [h, BitVec.getLsbD]
  · simp [h, BitVec.getLsbD_of_ge c i (by omega)]

theorem low_shift (n : ℕ) (c : BitVec w) : low (n + 1) c >>> 1 = low n (c >>> 1) := by
  apply BitVec.eq_of_getLsbD_eq
  intro i _
  rw [BitVec.getLsbD_ushiftRight, getLsbD_low, getLsbD_low, BitVec.getLsbD_ushiftRight]
  congr 1
  simp [Nat.add_comm 1 i]

/-- `n` steps use up the lowest `n` bits, and move the others down. The two
parts do not meet, since a step is linear. -/
theorem polySteps_split (n : ℕ) (c : BitVec w) :
    polySteps poly n c = polySteps poly n (low n c) ^^^ (c >>> n) := by
  induction n generalizing c with
  | zero =>
    have h_low : low 0 c = 0#w := by
      rw [low, pow_zero, Nat.mod_one]
    rw [h_low]
    simp [polySteps]
  | succ n ih =>
    have h_bit : (low (n + 1) c).getLsbD 0 = c.getLsbD 0 := by
      rw [getLsbD_low]
      simp
    change polySteps poly n (polyStep poly c) =
      polySteps poly n (polyStep poly (low (n + 1) c)) ^^^ (c >>> (n + 1))
    -- the first step takes off the same for both; the rest is the case of `n`
    rw [polyStep_eq, polyStep_eq, h_bit, polySteps_xor, polySteps_xor, low_shift,
      ih (c >>> 1), BitVec.xor_assoc, ← BitVec.shiftRight_add, Nat.add_comm 1 n]

theorem bits_succ (n d : ℕ) : bits (n + 1) d = d.testBit 0 :: bits n (d / 2) := by
  unfold bits
  rw [List.range_succ_eq_map, List.map_cons, List.map_map]
  congr 1
  exact List.map_congr_left fun i _ => Nat.testBit_succ d i

theorem ofNat_shift {d : ℕ} (h : d < 2 ^ w) : BitVec.ofNat w d >>> 1 = BitVec.ofNat w (d / 2) := by
  apply BitVec.eq_of_toNat_eq
  rw [BitVec.toNat_ushiftRight, BitVec.toNat_ofNat, BitVec.toNat_ofNat, Nat.mod_eq_of_lt h,
    Nat.mod_eq_of_lt (lt_of_le_of_lt (Nat.div_le_self d 2) h), Nat.shiftRight_eq_div_pow, pow_one]

/-- The bits of a number may be put into the remainder all at once. This is what
a table by bytes rests on. -/
theorem foldl_bits {n d : ℕ} (h_n : n ≤ w) (h_d : d < 2 ^ n) (c : BitVec w) :
    (bits n d).foldl (bitStep poly) c = polySteps poly n (c ^^^ BitVec.ofNat w d) := by
  induction n generalizing c d with
  | zero =>
    have h_zero : d = 0 := by omega
    subst h_zero
    exact BitVec.xor_zero.symm
  | succ n ih =>
    have h_lt : d < 2 ^ w := lt_of_lt_of_le h_d (Nat.pow_le_pow_right (by decide) h_n)
    have h_bit : (BitVec.ofNat w d).getLsbD 0 = d.testBit 0 := by
      rw [BitVec.getLsbD_ofNat, decide_eq_true (Nat.lt_of_lt_of_le n.succ_pos h_n), Bool.true_and]
    -- the lowest bit of the number meets the bit that leaves the remainder
    have h_step : polyStep poly (c ^^^ BitVec.ofNat w d) =
        bitStep poly c (d.testBit 0) ^^^ BitVec.ofNat w (d / 2) := by
      rw [polyStep_eq, bitStep_eq, BitVec.getLsbD_xor, h_bit, BitVec.ushiftRight_xor_distrib,
        ofNat_shift h_lt, BitVec.xor_assoc]
    rw [bits_succ, List.foldl_cons, ih (Nat.le_of_succ_le h_n) (by rw [pow_succ] at h_d; omega),
      ← h_step]
    rfl

theorem polySteps_add (m n : ℕ) (c : BitVec w) :
    polySteps poly (m + n) c = polySteps poly n (polySteps poly m c) := by
  induction m generalizing c with
  | zero => rw [Nat.zero_add, polySteps]
  | succ m ih =>
    rw [Nat.add_right_comm]
    exact ih (polyStep poly c)

/-- Zeros behind a message act on its remainder by steps of the polynomial
alone. -/
theorem remainder_replicate (h_w : 8 ≤ w) (n : ℕ) (c : BitVec w) :
    remainder poly c (List.replicate n 0) = polySteps poly (8 * n) c := by
  induction n generalizing c with
  | zero => rfl
  | succ n ih =>
    have h_zero : (bits 8 (0 : UInt8).toNat).foldl (bitStep poly) c = polySteps poly 8 c := by
      rw [foldl_bits poly h_w (by decide)]
      exact congrArg _ BitVec.xor_zero
    rw [List.replicate_succ, remainder_cons, h_zero, ih, ← polySteps_add]
    congr 1
    omega

/-- The step for a byte: a word of the table, and the remainder moved down by a
byte. -/
def tableStep (table : ℕ → BitVec w) (c : BitVec w) (d : UInt8) : BitVec w :=
  table ((c ^^^ BitVec.ofNat w d.toNat).toNat % 256) ^^^ (c >>> 8)

variable {poly} {table : ℕ → BitVec w}

/-- With the right table, the step for a byte is the steps for its eight bits. -/
theorem tableStep_eq (h_w : 8 ≤ w) (h : ∀ i < 256, table i = polySteps poly 8 (BitVec.ofNat w i))
    (c : BitVec w) (d : UInt8) :
    tableStep table c d = (bits 8 d.toNat).foldl (bitStep poly) c := by
  have h_d : d.toNat < 2 ^ 8 := d.toNat_lt
  have h_high : (c ^^^ BitVec.ofNat w d.toNat) >>> 8 = c >>> 8 := by
    have h_zero : BitVec.ofNat w d.toNat >>> 8 = 0#w := by
      apply BitVec.eq_of_toNat_eq
      rw [BitVec.toNat_ushiftRight, BitVec.toNat_ofNat, Nat.shiftRight_eq_div_pow,
        Nat.div_eq_of_lt (lt_of_le_of_lt (Nat.mod_le _ _) h_d), BitVec.toNat_zero]
    rw [BitVec.ushiftRight_xor_distrib, h_zero, BitVec.xor_zero]
  rw [foldl_bits poly h_w h_d, polySteps_split, h_high, tableStep, h _ (Nat.mod_lt _ (by decide))]
  rfl

/-- With the right table, the remainder of a message byte by byte is its
remainder bit by bit. -/
theorem foldl_tableStep (h_w : 8 ≤ w)
    (h : ∀ i < 256, table i = polySteps poly 8 (BitVec.ofNat w i)) (c : BitVec w)
    (data : List UInt8) : data.foldl (tableStep table) c = remainder poly c data := by
  induction data generalizing c with
  | nil => rfl
  | cons d data ih => rw [List.foldl_cons, ih, remainder_cons, tableStep_eq h_w h]

end Crc
