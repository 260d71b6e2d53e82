import IscsiTarget.Lib.LockedSections
import IscsiTarget.Model.Build

/-!
# Locking block ranges

`backend` has an array of mutexes. `lock_range` maps every block of a range to one of
them and locks the ones it gets, in the order a `std::set` is gone through;
`unlock_range` unlocks the same ones. A set of mutexes is modelled by the list in that
order.
-/

namespace IscsiTarget

/-! ### Block ranges -/

/-- Block `j` is in the range. -/
def Covers (r : UInt64 × UInt32) (j : ℕ) : Prop :=
  r.1.toNat ≤ j ∧ j < r.1.toNat + r.2.toNat

/-- Two ranges have a block in common. -/
def Overlap (r r' : UInt64 × UInt32) : Prop := ∃ j, Covers r j ∧ Covers r' j

/-- Overlapping ranges have a block in common that has a 64-bit number. -/
theorem Overlap.exists_lt {r r' : UInt64 × UInt32} (h : Overlap r r') :
    ∃ j, Covers r j ∧ Covers r' j ∧ j < 2 ^ 64 := by
  obtain ⟨j, ⟨h₁, h₂⟩, h₃, h₄⟩ := h
  have h_lt := r.1.toNat_lt
  have h_lt' := r'.1.toNat_lt
  refine ⟨max r.1.toNat r'.1.toNat, ⟨le_max_left _ _, ?_⟩, ⟨le_max_right _ _, ?_⟩, ?_⟩ <;> omega

/-- An address that is in no block of the range. -/
theorem outside_of_notCovers {r : UInt64 × UInt32} {bs x : ℕ} (hbs : 0 < bs)
    (h : ∀ j, Covers r j → ¬ (j * bs ≤ x ∧ x < (j + 1) * bs)) :
    x < r.1.toNat * bs ∨ (r.1.toNat + r.2.toNat) * bs ≤ x := by
  by_contra h_in
  push Not at h_in
  refine h (x / bs) ⟨?_, ?_⟩ ⟨Nat.div_mul_le_self x _, ?_⟩
  · exact (Nat.le_div_iff_mul_le hbs).mpr h_in.1
  · exact (Nat.div_lt_iff_lt_mul hbs).mpr h_in.2
  · exact (Nat.div_lt_iff_lt_mul hbs).mp (Nat.lt_succ_self _)

/-! ### Mutexes -/

namespace Build

variable (b : Build)

/-- Whether `lock_range` and `unlock_range` do anything:
`!defined(ARDUINO) && !defined(TEENSY4_1) && !defined(RP2040W)`. -/
def rangeLocks : Bool := !b.arduino

/-- `N_BACKEND_LOCKS`. -/
def nBackendLocks : ℕ := if b = .esp32 then 4 else 131

/-- `LOCK_SPREADER`. -/
def lockSpreader : UInt64 := if b = .esp32 then 3 else 31

theorem nBackendLocks_pos : 0 < b.nBackendLocks := by
  unfold nBackendLocks
  split <;> omega

/-- The mutex of a block: `(i * LOCK_SPREADER) % N_BACKEND_LOCKS`, in 64 bits. -/
def lockIndex (i : UInt64) : Fin b.nBackendLocks :=
  ⟨(i * b.lockSpreader).toNat % b.nBackendLocks, Nat.mod_lt _ b.nBackendLocks_pos⟩

/-- The loop of `lock_range` that collects the indexes, up to the block `stop`.
Every turn takes the next block, so the length of the range bounds their number. -/
def lockIndexes (stop : UInt64) :
    ℕ → UInt64 → Finset (Fin b.nBackendLocks) → Finset (Fin b.nBackendLocks)
  | 0, _, indexes => indexes
  | turns + 1, i, indexes =>
    if i < stop then lockIndexes stop turns (i + 1) (insert (b.lockIndex i) indexes)
    else indexes

/-- `lock_range`: the mutexes it locks, in the order it does. The indexes are
collected in a `std::set`, which is gone through from the least one on. -/
def lockRange (blockNr : UInt64) (blockN : UInt32) :
    LockedSections.Ascending (Fin b.nBackendLocks) where
  toList :=
    if b.rangeLocks then
      (List.finRange b.nBackendLocks).filter fun nr =>
        nr ∈ b.lockIndexes (blockNr + blockN.toUInt64) blockN.toNat blockNr ∅
    else []
  ascending := by
    split
    · exact (List.pairwise_lt_finRange _).filter _
    · exact List.Pairwise.nil

/-! ### Which mutexes a range locks -/

/-- What the loop adds, when the end of the range is no earlier than its start.
By induction on the turns, from the block at hand on. -/
theorem mem_lockIndexes {stop : UInt64} {nr : Fin b.nBackendLocks} {turns : ℕ} :
    ∀ {i : UInt64} {indexes : Finset (Fin b.nBackendLocks)}, i.toNat + turns = stop.toNat →
      (nr ∈ b.lockIndexes stop turns i indexes ↔
        nr ∈ indexes ∨ ∃ j : ℕ, i.toNat ≤ j ∧ j < stop.toNat ∧
          nr = b.lockIndex (UInt64.ofNat j)) := by
  have h_stop := stop.toNat_lt
  induction turns with
  | zero =>
    intro i indexes h
    simp only [lockIndexes, iff_self_or, forall_exists_index, and_imp]
    intro j hj hj'
    omega
  | succ turns ih =>
    intro i indexes h
    have h_lt : i < stop := UInt64.lt_iff_toNat_lt.mpr (by omega)
    have h_next : (i + 1).toNat = i.toNat + 1 := by
      rw [UInt64.toNat_add]
      exact Nat.mod_eq_of_lt (by simp; omega)
    rw [lockIndexes, if_pos h_lt, ih (by omega), h_next, Finset.mem_insert]
    constructor
    · rintro ((rfl | hmem) | ⟨j, hj, hj', rfl⟩)
      · exact .inr ⟨i.toNat, le_rfl, by omega, by rw [UInt64.ofNat_toNat]⟩
      · exact .inl hmem
      · exact .inr ⟨j, by omega, hj', rfl⟩
    · rintro (hmem | ⟨j, hj, hj', rfl⟩)
      · exact .inl (.inr hmem)
      · rcases Nat.eq_or_lt_of_le hj with rfl | hlt
        · exact .inl (.inl (by rw [UInt64.ofNat_toNat]))
        · exact .inr ⟨j, hlt, hj', rfl⟩

/-- A range that reaches past the 64-bit addresses locks nothing. -/
theorem lockIndexes_of_overflow {stop i : UInt64} (h : ¬ i < stop) (turns : ℕ)
    (indexes : Finset (Fin b.nBackendLocks)) : b.lockIndexes stop turns i indexes = indexes := by
  cases turns with
  | zero => rfl
  | succ turns => rw [lockIndexes, if_neg h]

/-- **The mutexes of a range** are those of its blocks, unless its end wraps
around. Then the loop makes no turn, and nothing is locked. -/
theorem mem_lockRange {blockNr : UInt64} {blockN : UInt32} {nr : Fin b.nBackendLocks} :
    nr ∈ (b.lockRange blockNr blockN).toList ↔
      b.rangeLocks = true ∧ blockNr.toNat + blockN.toNat < 2 ^ 64 ∧
        ∃ j : ℕ, blockNr.toNat ≤ j ∧ j < blockNr.toNat + blockN.toNat ∧
          nr = b.lockIndex (UInt64.ofNat j) := by
  have h_nr := blockNr.toNat_lt
  have h_n := blockN.toNat_lt
  have h_stop : (blockNr + blockN.toUInt64).toNat =
      (blockNr.toNat + blockN.toNat) % 2 ^ 64 := by
    rw [UInt64.toNat_add, UInt32.toNat_toUInt64]
  by_cases h_on : b.rangeLocks = true
  swap
  · simp [lockRange, h_on]
  simp only [lockRange, h_on, if_true, List.mem_filter, List.mem_finRange, true_and,
    decide_eq_true_eq]
  by_cases h : blockNr.toNat + blockN.toNat < 2 ^ 64
  · rw [Nat.mod_eq_of_lt h] at h_stop
    rw [b.mem_lockIndexes h_stop.symm, h_stop, and_iff_right h]
    simp only [Finset.notMem_empty, false_or]
  · rw [b.lockIndexes_of_overflow]
    · simp only [Finset.notMem_empty, false_iff]
      exact fun h' => h h'.1
    · rw [UInt64.lt_iff_toNat_lt, h_stop]
      omega

end Build

theorem Sample.neZero_two : NeZero 2 := ⟨by decide⟩

end IscsiTarget
