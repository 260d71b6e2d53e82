import IscsiTarget.Model.Sample

/-!
# Which ranges `validate_request` lets through

The check is made in 64-bit arithmetic that wraps: `lba > size - n` and then
`lba + n < lba`. Its exact meaning is `validateRequest_eq_none_iff`: the range
has to end below `2 ^ 64`, and it has to end inside the device *provided that*
the device has at least `n` blocks. For a device with fewer blocks than the
command asks for, `size - n` wraps around and the first comparison refuses
nothing that the second one lets through.

`validateRequest_exact_iff` says for which ranges that makes a difference, and
what it means for the commands that have their ranges checked this way.
-/

namespace IscsiTarget

namespace Scsi

variable {β : Type} (T : Target β) (s : Scsi β)

/-- The number of blocks of the device. -/
def size : ℕ := (s.getSizeInBlocks T).toNat

/-- The meaning of the two comparisons. The second one subtracts from the size
of the device, which wraps around when the range is longer than the device. -/
theorem validateRequest_eq_none_iff (lba : UInt64) (n : UInt32) :
    s.validateRequest T lba n none = none ↔
      lba.toNat + n.toNat < 2 ^ 64 ∧ (n.toNat ≤ s.size T → lba.toNat + n.toNat ≤ s.size T) := by
  have h_lba := lba.toNat_lt
  have h_n := n.toNat_lt
  have h_size := (s.getSizeInBlocks T).toNat_lt
  simp only [validateRequest, size, gt_iff_lt, UInt64.lt_iff_toNat_lt, UInt64.toNat_sub,
    UInt64.toNat_add, UInt32.toNat_toUInt64]
  split
  · simp
    omega
  · split
    · simp
      omega
    · simp
      omega

/-- With a command, the checks of the command come on top. -/
theorem validateRequest_cdb_eq_none_iff (lba : UInt64) (n : UInt32) (cdb : Cdb) :
    s.validateRequest T lba n (some cdb) = none ↔
      s.validateRequest T lba n none = none ∧ validateCdb T n cdb = none := by
  unfold validateRequest
  split
  · simp
  · split <;> simp

/-- Behind the range check, the checks of the command decide. -/
theorem validateRequest_of_range {lba : UInt64} {n : UInt32}
    (h : s.validateRequest T lba n none = none) (cdb : Cdb) :
    s.validateRequest T lba n (some cdb) = validateCdb T n cdb := by
  unfold validateRequest at h ⊢
  split at h
  · exact absurd h (by simp)
  · next h₁ =>
    split at h
    · exact absurd h (by simp)
    · next h₂ =>
      rw [if_neg h₁, if_neg h₂]

/-- A refusal comes with the sense data of one of two errors. -/
theorem validateRequest_sense {lba : UInt64} {n : UInt32} {cdb : Option Cdb} {sense : Bytes}
    (h : s.validateRequest T lba n cdb = some sense) :
    sense = errorOutOfRange ∨ sense = errorInvalidField := by
  unfold validateRequest validateCdb at h
  dsimp only at h
  repeat' split at h
  all_goals first
    | exact .inl (Option.some.inj h).symm
    | exact .inr (Option.some.inj h).symm
    | exact nomatch h

/-- A range inside the device passes. -/
theorem validateRequest_of_inRange {lba : UInt64} {n : UInt32}
    (h : lba.toNat + n.toNat ≤ s.size T) : s.validateRequest T lba n none = none := by
  have h_size : s.size T < 2 ^ 64 := (s.getSizeInBlocks T).toNat_lt
  rw [validateRequest_eq_none_iff]
  exact ⟨by omega, fun _ => h⟩

/-- A range that passes ends below `2 ^ 64`. -/
theorem lt_of_validateRequest {lba : UInt64} {n : UInt32} {cdb : Option Cdb}
    (h : s.validateRequest T lba n cdb = none) : lba.toNat + n.toNat < 2 ^ 64 := by
  cases cdb with
  | none => exact ((validateRequest_eq_none_iff T s lba n).mp h).1
  | some cdb =>
    rw [validateRequest_cdb_eq_none_iff] at h
    exact ((validateRequest_eq_none_iff T s lba n).mp h.1).1

/-! ### The commands behind the check -/

/-- The block descriptors of an UNMAP parameter list, 16 bytes each. The code
reads the address and the count of one before it looks at how much is left, so
that the last one may lack its four reserved bytes. -/
def unmapDescriptors : Bytes → List (UInt64 × UInt32)
  | d0 :: d1 :: d2 :: d3 :: d4 :: d5 :: d6 :: d7 :: n0 :: n1 :: n2 :: n3 ::
      _ :: _ :: _ :: _ :: rest =>
    (getUint64 d0 d1 d2 d3 d4 d5 d6 d7, getUint32 n0 n1 n2 n3) :: unmapDescriptors rest
  | d0 :: d1 :: d2 :: d3 :: d4 :: d5 :: d6 :: d7 :: n0 :: n1 :: n2 :: n3 :: _ =>
    [(getUint64 d0 d1 d2 d3 d4 d5 d6 d7, getUint32 n0 n1 n2 n3)]
  | _ => []

/-- The ranges a READ, WRITE, WRITE SAME, UNMAP or COMPARE AND WRITE addresses,
as the command states them. No other command addresses anything, and only UNMAP
addresses several. -/
def addressedRanges (cdb : Cdb) (data : Bytes) : List (UInt64 × UInt32) :=
  match cdb.opcode with
  | .unmap => unmapDescriptors (data.drop 8)
  | .compareAndWrite =>
    [(getUint64 (getElem cdb 2 Cdb.lt2) (getElem cdb 3 Cdb.lt3) (getElem cdb 4 Cdb.lt4)
      (getElem cdb 5 Cdb.lt5) (getElem cdb 6 Cdb.lt6) (getElem cdb 7 Cdb.lt7)
      (getElem cdb 8 Cdb.lt8) (getElem cdb 9 Cdb.lt9),
      (getElem cdb 13 Cdb.lt13).toUInt32)]
  | .read6 | .read10 | .read12 | .read16 | .write6 | .write10 | .writeVerify10 | .write12
  | .write16 | .writeSame10 | .writeSame16 => [cdb.range]
  | _ => []

/-- Every range of the command that passes stays inside the device. -/
def AddressesInside (cdb : Cdb) (data : Bytes) : Prop :=
  ∀ r ∈ addressedRanges cdb data, s.validateRequest T r.1 r.2 none = none →
    ∀ b, r.1.toNat ≤ b → b < r.1.toNat + r.2.toNat → b < s.size T

/-- The ranges for which the check is exact: the device is at least as long as
the range, or the range reaches past all 64-bit addresses. -/
def Checkable (r : UInt64 × UInt32) : Prop :=
  r.2.toNat ≤ s.size T ∨ 2 ^ 64 ≤ r.1.toNat + r.2.toNat

instance (r : UInt64 × UInt32) : Decidable (s.Checkable T r) :=
  inferInstanceAs (Decidable (_ ∨ _))

/-- The blocks of a range that passes are inside exactly when the range is
checkable. -/
theorem passes_inside_iff (r : UInt64 × UInt32) :
    (s.validateRequest T r.1 r.2 none = none →
      ∀ b, r.1.toNat ≤ b → b < r.1.toNat + r.2.toNat → b < s.size T) ↔ s.Checkable T r := by
  rw [validateRequest_eq_none_iff]
  unfold Checkable
  constructor
  · intro h
    by_contra hnot
    -- a longer range than the device passes, and its last block is outside
    have h_last := h ⟨by omega, by omega⟩ (r.1.toNat + r.2.toNat - 1) (by omega) (by omega)
    omega
  · rintro h ⟨h_end, h_fits⟩ b _ hb
    omega

/-- **Range validation is exact for checkable ranges, and only for them.** For
the command as a whole: no range that passes leaves the device exactly when all
its ranges are checkable. -/
theorem validateRequest_exact_iff :
    (∀ (lba : UInt64) (n : UInt32),
      (s.validateRequest T lba n none = none ↔ lba.toNat + n.toNat ≤ s.size T) ↔
        s.Checkable T (lba, n)) ∧
    (∀ (cdb : Cdb) (data : Bytes),
      s.AddressesInside T cdb data ↔ ∀ r ∈ addressedRanges cdb data, s.Checkable T r) := by
  constructor
  · intro lba n
    have h_size : s.size T < 2 ^ 64 := (s.getSizeInBlocks T).toNat_lt
    rw [validateRequest_eq_none_iff]
    change _ ↔ n.toNat ≤ s.size T ∨ 2 ^ 64 ≤ lba.toNat + n.toNat
    constructor
    · intro h
      by_contra hnot
      have := h.mp ⟨by omega, by omega⟩
      omega
    · intro h
      constructor
      · rintro ⟨h_end, h_fits⟩
        exact h_fits (by omega)
      · intro h_in
        exact ⟨by omega, fun _ => h_in⟩
  · intro cdb data
    exact forall₂_congr fun r _ => passes_inside_iff T s r

/-- On a device of five blocks, ten blocks from address 0 pass. -/
theorem validateRequest_short_device :
    ¬ ((Sample.conn 5 []).scsi.validateRequest (Sample.target 5) 0 10 none = none ↔
      (0 : UInt64).toNat + (10 : UInt32).toNat ≤
        (Sample.conn 5 []).scsi.size (Sample.target 5)) := by
  decide

end Scsi

end IscsiTarget
