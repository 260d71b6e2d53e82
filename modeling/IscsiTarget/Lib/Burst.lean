import IscsiTarget.Lib.Crc

/-!
# What a cyclic redundancy check detects

A message and its check are a codeword: from the start value they lead to the same remainder
whatever the message is (`foldl_complement`). So a codeword that has been damaged is noticed as soon
as its remainder is another one, and two facts about the polynomial are enough for that:

* Its lowest coefficient is 1, the highest bit of the reflected word. Then a step can be taken back
  (`bitStep_injective`), and no burst of at most `w` bits is missed (`foldl_ne_of_burst`).
* It has an even number of coefficients, of which the word leaves out the first one. Then the
  remainder counts the ones of the message (`parity_foldl`), and no odd number of flipped bits is
  missed (`foldl_ne_of_odd`).
-/

namespace Crc

variable {w : ℕ} {poly : BitVec w}

/-! ### Steps can be taken back -/

/-- The bit that a step has taken off is its highest one. -/
theorem getLsbD_bitStep (h_w : 0 < w) (h_poly : poly.getLsbD (w - 1) = true) (c : BitVec w)
    (b : Bool) : (bitStep poly c b).getLsbD (w - 1) = (c.getLsbD 0 ^^ b) := by
  have h_out : c.getLsbD (1 + (w - 1)) = false := BitVec.getLsbD_of_ge c _ (by omega)
  rw [bitStep_eq, BitVec.getLsbD_xor, BitVec.getLsbD_ushiftRight, h_out, Bool.xor_false]
  cases c.getLsbD 0 ^^ b <;> simp [taken, h_poly]

theorem bitStep_injective (h_w : 0 < w) (h_poly : poly.getLsbD (w - 1) = true) (b : Bool) :
    Function.Injective fun c => bitStep poly c b := by
  intro c c' h
  have h_step : bitStep poly c b = bitStep poly c' b := h
  have h_first : c.getLsbD 0 = c'.getLsbD 0 := by
    have h_bit := congrArg (fun x => x.getLsbD (w - 1)) h_step
    rw [getLsbD_bitStep h_w h_poly, getLsbD_bitStep h_w h_poly] at h_bit
    exact Bool.xor_left_inj.mp h_bit
  -- the same has been taken off both, so the rest is the same as well
  have h_rest : c >>> 1 = c' >>> 1 := by
    rw [bitStep_eq, bitStep_eq, h_first] at h_step
    exact (BitVec.xor_right_inj _).mp h_step
  apply BitVec.eq_of_getLsbD_eq
  intro i _
  cases i with
  | zero => exact h_first
  | succ i =>
    have h_bit := congrArg (fun x => x.getLsbD i) h_rest
    rwa [BitVec.getLsbD_ushiftRight, BitVec.getLsbD_ushiftRight, Nat.add_comm] at h_bit

theorem foldl_injective (h_w : 0 < w) (h_poly : poly.getLsbD (w - 1) = true) (m : List Bool) :
    Function.Injective fun c => m.foldl (bitStep poly) c := by
  induction m with
  | nil => exact Function.injective_id
  | cons b m ih => exact ih.comp (bitStep_injective h_w h_poly b)

theorem polySteps_injective (h_w : 0 < w) (h_poly : poly.getLsbD (w - 1) = true) (n : ℕ) :
    Function.Injective (polySteps poly n) := by
  induction n with
  | zero => exact Function.injective_id
  | succ n ih => exact ih.comp (bitStep_injective h_w h_poly false)

/-! ### Bursts -/

/-- Two messages that differ, but only within `k` bits in a row. -/
def Burst (k : ℕ) (a b : List Bool) : Prop :=
  a ≠ b ∧ ∃ front mid mid' back, a = front ++ (mid ++ back) ∧ b = front ++ (mid' ++ back) ∧
    mid.length = mid'.length ∧ mid.length ≤ k

/-- Any bits are the lowest bits of a number. -/
theorem exists_bits (m : List Bool) : ∃ d < 2 ^ m.length, bits m.length d = m := by
  refine ⟨Nat.ofBits fun i : Fin m.length => m.get i, Nat.ofBits_lt_two_pow _, ?_⟩
  apply List.ext_getElem
  · simp [bits]
  · intro i h_i h_m
    simp [bits, Nat.testBit_ofBits_lt _ i h_m]

/-- At most `w` bits are found in the remainder again: two messages of one
length that lead to the same remainder are the same message. -/
theorem eq_of_foldl_eq (h_poly : poly.getLsbD (w - 1) = true) {m m' : List Bool}
    (h_len : m.length = m'.length) (h_le : m.length ≤ w) {c : BitVec w}
    (h : m.foldl (bitStep poly) c = m'.foldl (bitStep poly) c) : m = m' := by
  obtain ⟨d, h_d, h_m⟩ := exists_bits m
  obtain ⟨d', h_d', h_m'⟩ := exists_bits m'
  rw [← h_len] at h_d' h_m'
  rcases Nat.eq_zero_or_pos w with h_zero | h_w
  · have h_nil : m.length = 0 := by omega
    rw [List.length_eq_zero_iff.mp h_nil, List.length_eq_zero_iff.mp (h_len.symm.trans h_nil)]
  · rw [← h_m, ← h_m', foldl_bits poly h_le h_d, foldl_bits poly h_le h_d'] at h
    have h_word := (BitVec.xor_right_inj _).mp (polySteps_injective h_w h_poly _ h)
    have h_pow : 2 ^ m.length ≤ 2 ^ w := Nat.pow_le_pow_right (by decide) h_le
    have h_num := congrArg BitVec.toNat h_word
    rw [BitVec.toNat_ofNat, BitVec.toNat_ofNat, Nat.mod_eq_of_lt (h_d.trans_le h_pow),
      Nat.mod_eq_of_lt (h_d'.trans_le h_pow)] at h_num
    rw [← h_m, ← h_m', h_num]

/-- **A burst of at most `w` bits** changes the remainder. -/
theorem foldl_ne_of_burst (h_w : 0 < w) (h_poly : poly.getLsbD (w - 1) = true) {a b : List Bool}
    (h : Burst w a b) (c : BitVec w) : a.foldl (bitStep poly) c ≠ b.foldl (bitStep poly) c := by
  obtain ⟨h_ne, front, mid, mid', back, rfl, rfl, h_len, h_le⟩ := h
  intro h_eq
  rw [List.foldl_append, List.foldl_append, List.foldl_append, List.foldl_append] at h_eq
  have h_mid := eq_of_foldl_eq h_poly h_len h_le (foldl_injective h_w h_poly back h_eq)
  exact h_ne (by rw [h_mid])

/-! ### Flipped bits -/

/-- The number of places at which two messages differ. -/
def flips : List Bool → List Bool → ℕ
  | x :: a, y :: b => (if x = y then 0 else 1) + flips a b
  | _, _ => 0

/-- A bit as a number modulo two. -/
def bit (b : Bool) : ZMod 2 := if b = true then 1 else 0

theorem bit_xor (a b : Bool) : bit (a ^^ b) = bit a + bit b := by
  revert a b
  decide

/-- The number of ones in a word, modulo two. -/
def parity (c : BitVec w) : ZMod 2 := ∑ i ∈ Finset.range w, bit (c.getLsbD i)

theorem parity_xor (a b : BitVec w) : parity (a ^^^ b) = parity a + parity b := by
  unfold parity
  rw [← Finset.sum_add_distrib]
  exact Finset.sum_congr rfl fun i _ => by rw [BitVec.getLsbD_xor, bit_xor]

/-- A shift loses the lowest bit. -/
theorem parity_shift (c : BitVec w) : parity (c >>> 1) = parity c + bit (c.getLsbD 0) := by
  have h_all : ∑ i ∈ Finset.range w, bit (c.getLsbD (i + 1)) + bit (c.getLsbD 0) = parity c := by
    have h_top : bit (c.getLsbD w) = 0 := by rw [BitVec.getLsbD_of_ge c w le_rfl]; rfl
    rw [← Finset.sum_range_succ' fun i => bit (c.getLsbD i), Finset.sum_range_succ, h_top, add_zero]
    rfl
  have h_shift : parity (c >>> 1) = ∑ i ∈ Finset.range w, bit (c.getLsbD (i + 1)) :=
    Finset.sum_congr rfl fun i _ => by rw [BitVec.getLsbD_ushiftRight, Nat.add_comm]
  rw [h_shift, ← h_all, add_assoc, CharTwo.add_self_eq_zero, add_zero]

theorem parity_bitStep (h_poly : parity poly = 1) (c : BitVec w) (b : Bool) :
    parity (bitStep poly c b) = parity c + bit b := by
  have h_taken (x : Bool) : parity (taken poly x) = bit x := by
    cases x with
    | false => simp [taken, parity, bit]
    | true => exact h_poly
  calc parity (bitStep poly c b)
      = bit (c.getLsbD 0) + bit b + (parity c + bit (c.getLsbD 0)) := by
        rw [bitStep_eq, parity_xor, h_taken, bit_xor, parity_shift]
    _ = parity c + bit b + (bit (c.getLsbD 0) + bit (c.getLsbD 0)) := by ring
    _ = parity c + bit b := by rw [CharTwo.add_self_eq_zero, add_zero]

/-- The remainder counts the ones of the message. -/
theorem parity_foldl (h_poly : parity poly = 1) (m : List Bool) (c : BitVec w) :
    parity (m.foldl (bitStep poly) c) = parity c + (m.map bit).sum := by
  induction m generalizing c with
  | nil => exact (add_zero _).symm
  | cons b m ih => rw [List.foldl_cons, ih, parity_bitStep h_poly, List.map_cons, List.sum_cons,
      add_assoc]

theorem cast_flips {a b : List Bool} (h : a.length = b.length) :
    (flips a b : ZMod 2) = (a.map bit).sum + (b.map bit).sum := by
  induction a generalizing b with
  | nil =>
    rw [List.length_eq_zero_iff.mp h.symm]
    rfl
  | cons x a ih =>
    cases b with
    | nil => cases h
    | cons y b =>
      have h_place : ∀ x y : Bool, ((if x = y then 0 else 1 : ℕ) : ZMod 2) = bit x + bit y := by
        decide
      rw [flips, Nat.cast_add, h_place, ih (Nat.succ.inj h), List.map_cons, List.sum_cons,
        List.map_cons, List.sum_cons]
      ring

/-- **An odd number of flipped bits** changes the remainder. -/
theorem foldl_ne_of_odd (h_poly : parity poly = 1) {a b : List Bool} (h_len : a.length = b.length)
    (h : Odd (flips a b)) (c : BitVec w) :
    a.foldl (bitStep poly) c ≠ b.foldl (bitStep poly) c := by
  intro h_eq
  have h_sum := congrArg parity h_eq
  rw [parity_foldl h_poly, parity_foldl h_poly] at h_sum
  have h_even : (flips a b : ZMod 2) = 0 := by
    rw [cast_flips h_len, add_left_cancel h_sum, CharTwo.add_self_eq_zero]
  rw [ZMod.natCast_eq_zero_iff_even] at h_even
  exact Nat.not_even_iff_odd.mpr h h_even

/-! ### Codewords -/

theorem bits_add (m n d : ℕ) : bits (m + n) d = bits m d ++ bits n (d / 2 ^ m) := by
  unfold bits
  rw [List.range_add, List.map_append, List.map_map]
  congr 1
  refine List.map_congr_left fun i _ => ?_
  rw [Function.comp_apply, Nat.testBit_div_two_pow, Nat.add_comm]

theorem bits_mod (n d : ℕ) : bits n (d % 2 ^ n) = bits n d := by
  unfold bits
  refine List.map_congr_left fun i h_i => ?_
  rw [Nat.testBit_mod_two_pow, decide_eq_true (List.mem_range.mp h_i), Bool.true_and]

/-- **Codewords.** When the complement of the remainder is put behind a message,
the remainder of both does not depend on the message; and nothing else that is
put there leads to it. -/
theorem foldl_complement (h_w : 0 < w) (h_poly : poly.getLsbD (w - 1) = true) {d : ℕ}
    (h_d : d < 2 ^ w) (c : BitVec w) :
    (bits w d).foldl (bitStep poly) c = polySteps poly w (BitVec.allOnes w) ↔
      BitVec.ofNat w d = ~~~c := by
  rw [foldl_bits poly le_rfl h_d]
  have h_not : c ^^^ ~~~c = BitVec.allOnes w := by
    rw [← BitVec.xor_allOnes, ← BitVec.xor_assoc, BitVec.xor_self, BitVec.zero_xor]
  refine ⟨fun h => ?_, fun h => by rw [h, h_not]⟩
  have h_word := polySteps_injective h_w h_poly w h
  rw [← h_not] at h_word
  exact (BitVec.xor_right_inj _).mp h_word

end Crc
