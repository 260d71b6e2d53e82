import IscsiTarget.Commands.Forms

/-!
# The capacity of the device

READ CAPACITY(16) and READ CAPACITY(10) both report the address of the last block, the one in
64 bits and the other in 32, and `validate_request` decides which blocks can be read. The first
and the third always agree (`readable_iff`, `lastLba16`). The 10-byte form cuts the address down
to its lower 32 bits, and does not say that there is more: `capacity_iff`.
-/

namespace IscsiTarget

open BigEndian

/-- READ CAPACITY(16), with room for the whole answer. -/
def readCapacity16Cdb : Cdb := #v[0x9e, 0x10, 0, 0, 0, 0, 0, 0, 0, 0, 0, 0, 0, 32, 0, 0]

theorem readCapacity16Cdb_action : getElem readCapacity16Cdb 1 Cdb.lt1 &&& 31 = 0x10 := by
  decide

theorem readCapacity16Cdb_length :
    8 ≤ (getUint32 (getElem readCapacity16Cdb 10 Cdb.lt10) (getElem readCapacity16Cdb 11 Cdb.lt11)
      (getElem readCapacity16Cdb 12 Cdb.lt12)
      (getElem readCapacity16Cdb 13 Cdb.lt13)).toNat := by decide

namespace Scsi

variable {β : Type} (T : Target β) (s : Scsi β)

/-- The last address of a device, as the three commands see it. The two READ
CAPACITY commands report it, and a READ tells by what it accepts. -/
structure CapacityAgrees (last : ℕ) : Prop where
  /-- READ CAPACITY(16) returns it, with any allocation length that has room for
  it. -/
  reported16 : ∀ cdb : Cdb, getElem cdb 1 Cdb.lt1 &&& 31 = 0x10 →
    8 ≤ (getUint32 (getElem cdb 10 Cdb.lt10) (getElem cdb 11 Cdb.lt11)
      (getElem cdb 12 Cdb.lt12) (getElem cdb 13 Cdb.lt13)).toNat →
    ∃ d, (s.getLbaStatus T cdb).inlineData = some d ∧ ofBytes (d.take 8) = last
  /-- A READ(16) of one block is accepted up to there, and not behind it. -/
  readable : ∀ (cdb : Cdb) (lba : UInt64), cdb.opcode = .read16 →
    getElem cdb 1 Cdb.lt1 >>> 5 = 0 → cdb.range = (lba, 1) →
    (s.validateRequest T lba 1 (some cdb) = none ↔ lba.toNat ≤ last)
  /-- READ CAPACITY(10) returns it when it fits in 32 bits, and else the largest
  number that does. -/
  reported10 : ∃ d, (s.readCapacity10 T).inlineData = some d ∧
    ofBytes (d.take 4) = if last < 2 ^ 32 then last else 0xffffffff

variable {T s}

theorem toNat_deviceSize (h : 1 ≤ s.size T) :
    (s.getSizeInBlocks T - 1).toNat = s.size T - 1 := by
  have h_le : (1 : UInt64) ≤ s.getSizeInBlocks T := UInt64.le_iff_toNat_le.mpr h
  exact UInt64.toNat_sub_of_le _ _ h_le

/-- What READ CAPACITY(16) returns: the last address in eight bytes, as long as
it is given the room for them. -/
theorem lastLba16 (h : 1 ≤ s.size T) {cdb : Cdb} (h_action : cdb[1] &&& 31 = 0x10)
    (h_length : 8 ≤ (getUint32 cdb[10] cdb[11] cdb[12] cdb[13]).toNat) :
    ∃ d, (s.getLbaStatus T cdb).inlineData = some d ∧ ofBytes (d.take 8) = s.size T - 1 := by
  have h_ne : getUint32 cdb[10] cdb[11] cdb[12] cdb[13] ≠ 0 := fun h_zero => by
    rw [h_zero] at h_length
    exact absurd h_length (by decide)
  have h_size : s.size T - 1 < 2 ^ 64 := by
    have h_lt : s.size T < 2 ^ 64 := (s.getSizeInBlocks T).toNat_lt
    omega
  unfold getLbaStatus readCapacity16
  dsimp only
  rw [if_pos h_action, if_neg h_ne]
  refine ⟨_, rfl, ?_⟩
  -- the eight bytes are in front, and the allocation length leaves them
  rw [List.take_take, min_eq_left h_length, ← toNat_deviceSize h]
  exact ofBytes_be64 (s.getSizeInBlocks T - 1).toNat_lt

/-- What can be read. -/
theorem readable_iff (h : 1 ≤ s.size T) {cdb : Cdb} {lba : UInt64} (h_op : cdb.opcode = .read16)
    (h_protect : cdb[1] >>> 5 = 0) :
    s.validateRequest T lba 1 (some cdb) = none ↔ lba.toNat ≤ s.size T - 1 := by
  have h_cdb : validateCdb T 1 cdb = none := by
    unfold validateCdb
    simp [h_op, h_protect, ScsiOpcode.isWriteSame, ScsiOpcode.checksWrProtect]
  have h_one : (1 : UInt32).toNat = 1 := rfl
  have h_size : s.size T < 2 ^ 64 := (s.getSizeInBlocks T).toNat_lt
  rw [validateRequest_cdb_eq_none_iff, validateRequest_eq_none_iff, h_one, and_iff_left h_cdb]
  omega

/-- What READ CAPACITY(10) returns. -/
theorem lastLba10 (h : 1 ≤ s.size T) :
    ∃ d, (s.readCapacity10 T).inlineData = some d ∧
      ofBytes (d.take 4) = (s.size T - 1) % 2 ^ 32 := by
  refine ⟨_, rfl, ?_⟩
  rw [← ofBytes_be32, ← toNat_deviceSize h]
  rfl

/-- The three agree about a last address exactly when the number of blocks fits
in 32 bits with its last address, or is a multiple of `2 ^ 32`. READ
CAPACITY(10) cuts the address down to 32 bits where it should report all ones;
in the second case they come out as all ones by themselves. -/
theorem capacity_iff (h : 1 ≤ s.size T) :
    (∃ last, s.CapacityAgrees T last) ↔ s.size T ≤ 2 ^ 32 ∨ s.size T % 2 ^ 32 = 0 := by
  obtain ⟨d, h_d, h_10⟩ := lastLba10 h
  have h_iff : (s.size T - 1) % 2 ^ 32 =
      (if s.size T - 1 < 2 ^ 32 then s.size T - 1 else 0xffffffff) ↔
      s.size T ≤ 2 ^ 32 ∨ s.size T % 2 ^ 32 = 0 := by
    split <;> omega
  constructor
  · rintro ⟨last, h_agrees⟩
    -- the last address is what READ CAPACITY(16) returns
    obtain ⟨d₁, h_d₁, h_last⟩ := h_agrees.reported16 readCapacity16Cdb readCapacity16Cdb_action
      readCapacity16Cdb_length
    obtain ⟨d₂, h_d₂, h_16⟩ := lastLba16 h readCapacity16Cdb_action readCapacity16Cdb_length
    rw [Option.some_inj.mp (h_d₁.symm.trans h_d₂)] at h_last
    obtain ⟨d₃, h_d₃, h_cut⟩ := h_agrees.reported10
    rw [Option.some_inj.mp (h_d₃.symm.trans h_d), h_10, ← h_last, h_16] at h_cut
    exact h_iff.mp h_cut
  · intro h_size
    exact ⟨s.size T - 1, fun cdb h_action h_length => lastLba16 h h_action h_length,
      fun cdb lba h_op h_protect _ => readable_iff h h_op h_protect,
      d, h_d, h_10.trans (h_iff.mpr h_size)⟩

end Scsi

open Sample in
/-- A device of 100 blocks. -/
theorem capacity_small :
    (∃ last, (conn 100 []).scsi.CapacityAgrees (target 100) last) ↔
      (conn 100 []).scsi.size (target 100) ≤ 2 ^ 32 ∨
        (conn 100 []).scsi.size (target 100) % 2 ^ 32 = 0 :=
  Scsi.capacity_iff (by decide)

open Sample in
/-- One block more than the largest device that READ CAPACITY(10) can describe.
The last address is `2 ^ 32`, as READ CAPACITY(16) says; the 10-byte form
returns 0. -/
theorem capacity_large :
    ¬∃ last, (conn 0x100000001 []).scsi.CapacityAgrees (target 0x100000001) last := by
  rintro ⟨last, h_agrees⟩
  obtain ⟨d₁, h_d₁, h_last⟩ := h_agrees.reported16 readCapacity16Cdb readCapacity16Cdb_action
    readCapacity16Cdb_length
  obtain ⟨d₂, h_d₂, h_cut⟩ := h_agrees.reported10
  have h_10 : ((conn 0x100000001 []).scsi.readCapacity10 (target 0x100000001)).inlineData.map
    (·.take 4) = some [0, 0, 0, 0] := by decide
  have h_16 : ((conn 0x100000001 []).scsi.getLbaStatus (target 0x100000001)
    readCapacity16Cdb).inlineData.map (·.take 8) = some [0, 0, 0, 1, 0, 0, 0, 0] := by decide
  rw [h_d₂, Option.map_some, Option.some_inj] at h_10
  rw [h_d₁, Option.map_some, Option.some_inj] at h_16
  rw [← h_last, h_10, h_16] at h_cut
  exact absurd h_cut (by decide)

end IscsiTarget
