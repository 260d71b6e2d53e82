import IscsiTarget.Lib.Medium
import IscsiTarget.Model.Backend

/-!
# What COMPARE AND WRITE is for

`AllOrNothing` is the contract of `cmpwrite`: the range is compared as a whole and then
written as a whole, or left alone. It is stated about the ways in which a run of `cmpwrite`
can end while nobody else is at work.

All backends compare block by block. `Matches` says that the first `i` blocks are as they
should be, and `matches_succ` takes it one block further.
-/

namespace IscsiTarget

/-! ### The contract -/

/-- All or nothing, of a `cmpwrite` that finds `m`. `ends clean result m'`: it
can return `result` and leave `m'`, without an I/O error if `clean`. -/
structure AllOrNothing (ends : Prop → CmpwriteResult → Medium UInt8 → Prop) (m : Medium UInt8)
    (off : ℕ) (dataWrite dataCompare : Bytes) : Prop where
  returns : ∃ result m', ends True result m'
  ok_iff : ∀ result m', ends True result m' →
    (result = .ok ↔ m.slice off dataCompare.length = dataCompare)
  ok_holds : ∀ m', ends True .ok m' → m'.slice off dataWrite.length = dataWrite
  /-- Even if there are I/O errors. -/
  mismatch : ∀ m', ends False .mismatch m' → m' = m

/-- The offset of block `i` of a range, as the code computes it in 64 bits. It
does not wrap around where the range ends in time. -/
theorem toNat_offset {blockNr : UInt64} {bs n i : ℕ} (h : (blockNr.toNat + n) * bs < 2 ^ 64)
    (h_pos : 0 < bs) (hi : i ≤ n) :
    ((blockNr + UInt64.ofNat i) * UInt64.ofNat bs).toNat = blockNr.toNat * bs + i * bs := by
  have h_nr : blockNr.toNat + n < 2 ^ 64 := lt_of_le_of_lt (Nat.le_mul_of_pos_right _ h_pos) h
  have h_mul : (blockNr.toNat + i) * bs < 2 ^ 64 :=
    lt_of_le_of_lt (Nat.mul_le_mul_right _ (by omega)) h
  have h_add : (blockNr + UInt64.ofNat i).toNat = blockNr.toNat + i := by
    rw [UInt64.toNat_add, UInt64.toNat_ofNat']
    omega
  rw [UInt64.toNat_mul, h_add, UInt64.toNat_ofNat', ← Nat.add_mul]
  by_cases h_zero : blockNr.toNat + i = 0
  · rw [h_zero, Nat.zero_mul, Nat.zero_mul]
  · have h_bs : bs < 2 ^ 64 :=
      lt_of_le_of_lt (Nat.le_mul_of_pos_left _ (Nat.pos_of_ne_zero h_zero)) h_mul
    rw [Nat.mod_eq_of_lt h_bs, Nat.mod_eq_of_lt h_mul]

/-! ### Block by block -/

section Blocks

variable (m : Medium UInt8) (off bs : ℕ) (dataCompare : Bytes)

/-- The first `i` blocks are as they should be. -/
def Matches (i : ℕ) : Prop := m.slice off (i * bs) = dataCompare.take (i * bs)

/-- Block `i` is. -/
def MatchesAt (i : ℕ) : Prop := m.slice (off + i * bs) bs = (dataCompare.drop (i * bs)).take bs

variable {m off bs dataCompare} {n i : ℕ}

theorem matches_zero : Matches m off bs dataCompare 0 := by
  unfold Matches
  rw [Nat.zero_mul, List.take_zero, Medium.slice_zero]

theorem matches_succ (h_len : dataCompare.length = n * bs) (hi : i < n) :
    Matches m off bs dataCompare (i + 1) ↔
      Matches m off bs dataCompare i ∧ MatchesAt m off bs dataCompare i := by
  unfold Matches MatchesAt
  rw [Nat.succ_mul]
  refine Medium.slice_eq_take_add ?_
  rw [h_len]
  exact Nat.mul_le_mul_right _ hi.le

/-- All blocks match exactly when the range is what it is compared with. -/
theorem matches_iff (h_len : dataCompare.length = n * bs) :
    Matches m off bs dataCompare n ↔ m.slice off dataCompare.length = dataCompare := by
  unfold Matches
  rw [← h_len, List.take_length]

theorem Matches.mono (h : Matches m off bs dataCompare n) (h_len : dataCompare.length = n * bs)
    (hi : i ≤ n) : Matches m off bs dataCompare i := by
  induction hi using Nat.decreasingInduction with
  | self => exact h
  | of_succ k hk ih => exact ((matches_succ h_len hk).mp ih).1

/-- A block that does not match. -/
theorem not_matches (h_len : dataCompare.length = n * bs) (hi : i < n)
    (h_at : ¬ MatchesAt m off bs dataCompare i) : ¬ Matches m off bs dataCompare n :=
  fun h => h_at ((matches_succ h_len hi).mp (h.mono h_len hi)).2

end Blocks

end IscsiTarget
