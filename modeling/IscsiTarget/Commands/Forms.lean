import Mathlib
import IscsiTarget.Lib.BigEndian
import IscsiTarget.Model.Sample
import IscsiTarget.Write.Immediate

/-!
# The forms of READ and WRITE

READ and WRITE come in four forms, with CDBs of 6, 10, 12 and 16 bytes. `Cdb.Asks` says what
such a CDB asks for in terms of the formats: where each form has its address and its count,
as big-endian numbers. `range_of_asks` shows that `get_lba_len` finds them there.

Two READs for the same blocks are answered alike, whatever their forms. A WRITE takes its
FUA flag from bit 3 of byte 1 in every form, and that is a bit of the address in the 6-byte
form: `interchangeable_iff`.
-/

namespace IscsiTarget

open BigEndian

/-! ### Numbers -/

theorem toNat_byteAt (v shift : ℕ) : (byteAt v shift).toNat = v / 2 ^ shift % 256 := by
  rw [byteAt, UInt8.toNat_ofNat']

theorem ofBytes_be64 {v : ℕ} (h : v < 2 ^ 64) : ofBytes (be64 v) = v := by
  change ofBytes [byteAt v 56, byteAt v 48, byteAt v 40, byteAt v 32, byteAt v 24, byteAt v 16,
    byteAt v 8, byteAt v 0] = v
  simp only [ofBytes, List.length_cons, List.length_nil, toNat_byteAt]
  omega

/-- Four bytes hold what fits, and drop the rest. -/
theorem ofBytes_be32 (v : ℕ) : ofBytes (be32 v) = v % 2 ^ 32 := by
  change ofBytes [byteAt v 24, byteAt v 16, byteAt v 8, byteAt v 0] = _
  simp only [ofBytes, List.length_cons, List.length_nil, toNat_byteAt]
  omega

theorem toNat_getUint32 (p0 p1 p2 p3 : UInt8) :
    (getUint32 p0 p1 p2 p3).toNat = ofBytes [p0, p1, p2, p3] := by
  unfold getUint32
  simp only [UInt32.toNat_or, UInt32.toNat_shiftLeft, UInt8.toNat_toUInt32, Nat.or_assoc,
    UInt32.reduceToNat, Nat.reduceMod]
  rw [byte_shiftLeft_mod (by decide), byte_shiftLeft_mod (by decide),
    byte_shiftLeft_mod (by decide)]
  simp only [ofBytes_cons_or]
  simp [ofBytes]

theorem toNat_getUint64 (p0 p1 p2 p3 p4 p5 p6 p7 : UInt8) :
    (getUint64 p0 p1 p2 p3 p4 p5 p6 p7).toNat = ofBytes [p0, p1, p2, p3, p4, p5, p6, p7] := by
  unfold getUint64
  simp only [UInt64.toNat_or, UInt64.toNat_shiftLeft, UInt8.toNat_toUInt64, Nat.or_assoc,
    UInt64.reduceToNat, Nat.reduceMod]
  rw [byte_shiftLeft_mod (by decide), byte_shiftLeft_mod (by decide),
    byte_shiftLeft_mod (by decide), byte_shiftLeft_mod (by decide),
    byte_shiftLeft_mod (by decide), byte_shiftLeft_mod (by decide),
    byte_shiftLeft_mod (by decide)]
  simp only [ofBytes_cons_or]
  simp [ofBytes]

/-! ### The formats -/

/-- The two commands. -/
inductive Transfer
  | read
  | write
  deriving DecidableEq, Repr

/-- Their opcodes, as they stand in the first byte of the CDB. The upper three
bits are the group, which decides on the size. -/
def Transfer.byte : Transfer → CdbSize → UInt8
  | .read, .cs6 => 0x08
  | .read, .cs10 => 0x28
  | .read, .cs12 => 0xa8
  | .read, .cs16 => 0x88
  | .write, .cs6 => 0x0a
  | .write, .cs10 => 0x2a
  | .write, .cs12 => 0xaa
  | .write, .cs16 => 0x8a

namespace CdbSize

/-- The address of a form. In the 6-byte form it is the lower 21 bits of three
bytes, and in the others it has four or eight bytes of its own. -/
def address (cdb : Cdb) : CdbSize → ℕ
  | .cs6 =>
    ofBytes [getElem cdb 1 Cdb.lt1, getElem cdb 2 Cdb.lt2, getElem cdb 3 Cdb.lt3] % 2 ^ 21
  | .cs10 =>
    ofBytes [getElem cdb 2 Cdb.lt2, getElem cdb 3 Cdb.lt3, getElem cdb 4 Cdb.lt4,
      getElem cdb 5 Cdb.lt5]
  | .cs12 =>
    ofBytes [getElem cdb 2 Cdb.lt2, getElem cdb 3 Cdb.lt3, getElem cdb 4 Cdb.lt4,
      getElem cdb 5 Cdb.lt5]
  | .cs16 =>
    ofBytes [getElem cdb 2 Cdb.lt2, getElem cdb 3 Cdb.lt3, getElem cdb 4 Cdb.lt4,
      getElem cdb 5 Cdb.lt5, getElem cdb 6 Cdb.lt6, getElem cdb 7 Cdb.lt7,
      getElem cdb 8 Cdb.lt8, getElem cdb 9 Cdb.lt9]

/-- The number of blocks of a form. In the 6-byte form zero stands for 256. -/
def count (cdb : Cdb) : CdbSize → ℕ
  | .cs6 => if getElem cdb 4 Cdb.lt4 = 0 then 256 else (getElem cdb 4 Cdb.lt4).toNat
  | .cs10 => ofBytes [getElem cdb 7 Cdb.lt7, getElem cdb 8 Cdb.lt8]
  | .cs12 =>
    ofBytes [getElem cdb 6 Cdb.lt6, getElem cdb 7 Cdb.lt7, getElem cdb 8 Cdb.lt8,
      getElem cdb 9 Cdb.lt9]
  | .cs16 =>
    ofBytes [getElem cdb 10 Cdb.lt10, getElem cdb 11 Cdb.lt11, getElem cdb 12 Cdb.lt12,
      getElem cdb 13 Cdb.lt13]

/-- What a form has room for. The 6-byte form cannot ask for zero blocks, since
it says 256 in that way. -/
def Represents (lba : UInt64) (n : UInt32) : CdbSize → Prop
  | .cs6 => lba.toNat < 2 ^ 21 ∧ 1 ≤ n.toNat ∧ n.toNat ≤ 256
  | .cs10 => lba.toNat < 2 ^ 32 ∧ n.toNat < 2 ^ 16
  | .cs12 => lba.toNat < 2 ^ 32
  | .cs16 => True

end CdbSize

/-- The CDB asks for `n` blocks from `lba` on, with no flag set. The 6-byte form
has none. -/
structure Cdb.Asks (cdb : Cdb) (k : Transfer) (size : CdbSize) (lba : UInt64) (n : UInt32) :
    Prop where
  opcode : getElem cdb 0 Cdb.lt0 = k.byte size
  address : size.address cdb = lba.toNat
  count : size.count cdb = n.toNat
  flags : size ≠ .cs6 → getElem cdb 1 Cdb.lt1 = 0

/-- The CDB of a form that asks for a range. All flags are clear, and the group
number and the control byte are zero. -/
def CdbSize.cdb (k : Transfer) (lba : UInt64) (n : UInt32) (size : CdbSize) : Cdb :=
  let a := byteAt lba.toNat
  let c := byteAt n.toNat
  let op := k.byte size
  match size with
  | .cs6 => #v[op, a 16, a 8, a 0, c 0, 0, 0, 0, 0, 0, 0, 0, 0, 0, 0, 0]
  | .cs10 => #v[op, 0, a 24, a 16, a 8, a 0, 0, c 8, c 0, 0, 0, 0, 0, 0, 0, 0]
  | .cs12 => #v[op, 0, a 24, a 16, a 8, a 0, c 24, c 16, c 8, c 0, 0, 0, 0, 0, 0, 0]
  | .cs16 =>
    #v[op, 0, a 56, a 48, a 40, a 32, a 24, a 16, a 8, a 0, c 24, c 16, c 8, c 0, 0, 0]

variable {k : Transfer} {size size' : CdbSize} {lba : UInt64} {n : UInt32} {cdb : Cdb}

theorem asks_cdb (h : size.Represents lba n) : (size.cdb k lba n).Asks k size lba n := by
  have h_lba := lba.toNat_lt
  have h_n := n.toNat_lt
  -- the fields are read back byte by byte; the 6-byte form has a zero count for 256 blocks
  cases size with
  | cs6 =>
    obtain ⟨h_address, h_pos, h_count⟩ := h
    refine ⟨rfl, ?_, ?_, fun h => absurd rfl h⟩
    · change ofBytes [byteAt _ 16, byteAt _ 8, byteAt _ 0] % 2 ^ 21 = _
      simp only [ofBytes, List.length_cons, List.length_nil, toNat_byteAt]
      omega
    · change (if byteAt n.toNat 0 = 0 then 256 else (byteAt n.toNat 0).toNat) = _
      have h_zero : byteAt n.toNat 0 = 0 ↔ n.toNat % 256 = 0 := by
        rw [← UInt8.toNat_inj, toNat_byteAt, pow_zero, Nat.div_one, UInt8.toNat_zero]
      split
      · next h => have := h_zero.mp h; omega
      · next h =>
        rw [toNat_byteAt]
        have := mt h_zero.mpr h
        omega
  | cs10 =>
    obtain ⟨h_address, h_count⟩ := h
    refine ⟨rfl, ?_, ?_, fun _ => rfl⟩
    · change ofBytes [byteAt _ 24, byteAt _ 16, byteAt _ 8, byteAt _ 0] = _
      simp only [ofBytes, List.length_cons, List.length_nil, toNat_byteAt]
      omega
    · change ofBytes [byteAt _ 8, byteAt _ 0] = _
      simp only [ofBytes, List.length_cons, List.length_nil, toNat_byteAt]
      omega
  | cs12 =>
    have h_address : lba.toNat < 2 ^ 32 := h
    refine ⟨rfl, ?_, ?_, fun _ => rfl⟩
    · change ofBytes [byteAt _ 24, byteAt _ 16, byteAt _ 8, byteAt _ 0] = _
      simp only [ofBytes, List.length_cons, List.length_nil, toNat_byteAt]
      omega
    · change ofBytes [byteAt _ 24, byteAt _ 16, byteAt _ 8, byteAt _ 0] = _
      simp only [ofBytes, List.length_cons, List.length_nil, toNat_byteAt]
      omega
  | cs16 =>
    refine ⟨rfl, ?_, ?_, fun _ => rfl⟩
    · change ofBytes [byteAt _ 56, byteAt _ 48, byteAt _ 40, byteAt _ 32, byteAt _ 24,
        byteAt _ 16, byteAt _ 8, byteAt _ 0] = _
      simp only [ofBytes, List.length_cons, List.length_nil, toNat_byteAt]
      omega
    · change ofBytes [byteAt _ 24, byteAt _ 16, byteAt _ 8, byteAt _ 0] = _
      simp only [ofBytes, List.length_cons, List.length_nil, toNat_byteAt]
      omega

/-! ### What the code makes of them -/

/-- The opcode of a form. -/
def Transfer.opcode : Transfer → CdbSize → ScsiOpcode
  | .read, .cs6 => .read6
  | .read, .cs10 => .read10
  | .read, .cs12 => .read12
  | .read, .cs16 => .read16
  | .write, .cs6 => .write6
  | .write, .cs10 => .write10
  | .write, .cs12 => .write12
  | .write, .cs16 => .write16

theorem opcode_of_asks (h : cdb.Asks k size lba n) : cdb.opcode = k.opcode size := by
  unfold Cdb.opcode
  rw [h.opcode]
  cases k <;> cases size <;> rfl

/-- The upper bits of the first byte of the address, which may hold anything. -/
theorem toNat_and_31 (b : UInt8) : (b &&& 31).toNat = b.toNat % 32 := by
  rw [UInt8.toNat_and]
  exact Nat.and_two_pow_sub_one_eq_mod b.toNat 5

/-- **`get_lba_len` finds the range** that a form asks for. Address and count
are put together from single bytes, for each of the eight opcodes. -/
theorem range_of_asks (h : cdb.Asks k size lba n) : cdb.range = (lba, n) := by
  have h_size : cdb.opcode.cdbSize = some size := by
    rw [opcode_of_asks h]
    cases k <;> cases size <;> rfl
  have h_range : cdb.range = getLbaLen cdb size := by
    unfold Cdb.range
    rw [h_size]
  rw [h_range]
  have h_address := h.address
  have h_count := h.count
  cases size with
  | cs6 =>
    apply Prod.ext
    · apply UInt64.toNat_inj.mp
      rw [← h_address]
      -- the address has 21 bits, of which the highest five are the rest of a byte
      change
        ((cdb[1] &&& 31).toUInt64 <<< 16 ||| cdb[2].toUInt64 <<< 8 ||| cdb[3].toUInt64).toNat = _
      simp only [UInt64.toNat_or, UInt64.toNat_shiftLeft, UInt8.toNat_toUInt64, Nat.or_assoc,
        UInt64.reduceToNat, Nat.reduceMod]
      rw [byte_shiftLeft_mod (by decide), byte_shiftLeft_mod (by decide)]
      have h_or : (cdb[1] &&& 31).toNat <<< 16 ||| (cdb[2].toNat <<< 8 ||| cdb[3].toNat) =
          ofBytes [cdb[1] &&& 31, cdb[2], cdb[3]] := by
        simp only [ofBytes_cons_or]
        simp [ofBytes]
      have h_b2 := cdb[2].toNat_lt
      have h_b3 := cdb[3].toNat_lt
      rw [h_or]
      simp only [CdbSize.address, ofBytes, List.length_cons, List.length_nil, toNat_and_31]
      omega
    · apply UInt32.toNat_inj.mp
      rw [← h_count]
      change (if cdb[4] = 0 then (256 : UInt32) else cdb[4].toUInt32).toNat = _
      unfold CdbSize.count
      split
      · rfl
      · rfl
  | cs10 =>
    apply Prod.ext
    · apply UInt64.toNat_inj.mp
      rw [← h_address]
      exact toNat_getUint32 _ _ _ _
    · apply UInt32.toNat_inj.mp
      rw [← h_count]
      change (cdb[7].toUInt32 <<< 8 ||| cdb[8].toUInt32).toNat = ofBytes [cdb[7], cdb[8]]
      simp only [UInt32.toNat_or, UInt32.toNat_shiftLeft, UInt8.toNat_toUInt32,
        UInt32.reduceToNat, Nat.reduceMod]
      rw [byte_shiftLeft_mod (by decide)]
      simp only [ofBytes_cons_or]
      simp [ofBytes]
  | cs12 =>
    apply Prod.ext
    · apply UInt64.toNat_inj.mp
      rw [← h_address]
      exact toNat_getUint32 _ _ _ _
    · apply UInt32.toNat_inj.mp
      rw [← h_count]
      exact toNat_getUint32 _ _ _ _
  | cs16 =>
    apply Prod.ext
    · apply UInt64.toNat_inj.mp
      rw [← h_address]
      exact toNat_getUint64 _ _ _ _ _ _ _ _
    · apply UInt32.toNat_inj.mp
      rw [← h_count]
      exact toNat_getUint32 _ _ _ _

variable {β : Type} {T : Target β}

/-- A form without flags passes the checks of the command. -/
theorem validateCdb_of_asks (h : cdb.Asks k size lba n) : Scsi.validateCdb T n cdb = none := by
  have h_op := opcode_of_asks h
  have h_flags := h.flags
  unfold Scsi.validateCdb
  dsimp only
  rw [h_op]
  generalize cdb[1] = b at h_flags
  cases k <;> cases size <;>
    simp [Transfer.opcode, ScsiOpcode.isWriteSame, ScsiOpcode.checksWrProtect, h_flags]

/-- What is left of the checks is the one of the range. -/
theorem validateRequest_of_asks (s : Scsi β) (h : cdb.Asks k size lba n) :
    s.validateRequest T lba n (some cdb) = s.validateRequest T lba n none := by
  unfold Scsi.validateRequest
  dsimp only
  rw [validateCdb_of_asks h]

theorem and_8_ne_zero (b : UInt8) : (b &&& 8 != 0) = b.toNat.testBit 3 := by
  have h_and : (b &&& 8).toNat = (b.toNat.testBit 3).toNat * 2 ^ 3 := by
    rw [UInt8.toNat_and]
    exact Nat.and_two_pow b.toNat 3
  cases h_bit : b.toNat.testBit 3 with
  | false =>
    rw [h_bit] at h_and
    have h_zero : b &&& 8 = 0 := UInt8.toNat_inj.mp h_and
    simp [h_zero]
  | true =>
    rw [h_bit] at h_and
    have h_ne : b &&& 8 ≠ 0 := fun h => by simp [h] at h_and
    simp [h_ne]

/-- The bit of byte 1 that is taken for FUA is part of the address in the 6-byte
form, and clear in all others. -/
theorem fuaBit_of_asks (h : cdb.Asks k size lba n) :
    Scsi.fuaBit cdb = (decide (size = .cs6) && lba.toNat.testBit 19) := by
  unfold Scsi.fuaBit
  by_cases h_six : size = .cs6
  · subst h_six
    have h_address : ofBytes [cdb[1], cdb[2], cdb[3]] % 2 ^ 21 = lba.toNat := h.address
    have h_b2 := cdb[2].toNat_lt
    have h_b3 := cdb[3].toNat_lt
    -- bit 3 of byte 1 is bit 19 of the 21 bits of the address
    have h_bit : lba.toNat.testBit 19 = cdb[1].toNat.testBit 3 := by
      rw [← h_address, Nat.testBit_mod_two_pow]
      simp only [ofBytes, List.length_cons, List.length_nil, Nat.testBit_eq_decide_div_mod_eq]
      have h_div : (cdb[1].toNat * 2 ^ (8 * (0 + 1 + 1)) + (cdb[2].toNat * 2 ^ (8 * (0 + 1)) +
          (cdb[3].toNat * 2 ^ (8 * 0) + 0))) / 2 ^ 19 = cdb[1].toNat / 2 ^ 3 := by omega
      rw [h_div]
      simp
    rw [h_bit, and_8_ne_zero, decide_eq_true rfl, Bool.true_and]
  · -- the other forms have a flag there, which is clear
    rw [h.flags h_six, decide_eq_false h_six]
    rfl

/-! ### Two forms -/

variable {c d : Cdb} {s : Scsi β} {data : Bytes}

/-- The bit of the address that a WRITE takes for FUA is set. -/
def takesFua (size : CdbSize) (lba : UInt64) : Bool :=
  decide (size = .cs6) && lba.toNat.testBit 19

/-- What a WRITE asks for is accepted: the range is, and the immediate data is
stored. Only then does its FUA flag count. -/
def Scsi.Accepts (T : Target β) (s : Scsi β) (lba : UInt64) (n : UInt32) (data : Bytes) : Prop :=
  s.validateRequest T lba n none = none ∧
    (data ≠ [] → (s.storeImmediate T lba n data).1 = .ok)

/-- **The forms of READ** are interchangeable. -/
theorem read_of_asks (hc : c.Asks .read size lba n) (hd : d.Asks .read size' lba n) :
    s.read_ T c = s.read_ T d := by
  unfold Scsi.read_
  rw [range_of_asks hc, range_of_asks hd]
  dsimp only
  rw [validateRequest_of_asks s hc, validateRequest_of_asks s hd]

/-- A WRITE that is not accepted does not look at the flag. It is refused, or
fails, before anything is synced. -/
theorem writeVerify_of_not_accepts (hc : c.Asks .write size lba n)
    (hd : d.Asks .write size' lba n) (h : ¬ s.Accepts T lba n data) :
    s.writeVerify T c data = s.writeVerify T d data := by
  unfold Scsi.writeVerify
  rw [range_of_asks hc, range_of_asks hd]
  dsimp only
  rw [validateRequest_of_asks s hc, validateRequest_of_asks s hd]
  cases h_check : s.validateRequest T lba n none with
  | some sense => rfl
  | none =>
    -- the range is fine, so the immediate data could not be stored
    have h_data : data ≠ [] ∧ (s.storeImmediate T lba n data).1 ≠ .ok := by
      unfold Scsi.Accepts at h
      push Not at h
      exact h h_check
    dsimp only
    rw [if_pos h_data.1, if_pos h_data.1]
    have h_rc := h_data.2
    generalize s.storeImmediate T lba n data = r at h_rc
    obtain ⟨rc, s'⟩ := r
    cases rc with
    | ok => exact absurd rfl h_rc
    | failRw | failLocked | failGeneral | failMismatch => rfl

/-- A sync is a call of its own. -/
theorem sync_ne_self (h : s.lockingStatus T ≠ .lockedOther) : (s.sync T).2 ≠ s := by
  rw [Scsi.sync_of_unlocked h]
  intro h_eq
  have h_history : s.history ++ [_] = s.history := congrArg Scsi.history h_eq
  simp at h_history

/-- Data is only stored when no other session holds the device. -/
theorem unlocked_of_stored (h_data : data ≠ []) (h : (s.storeImmediate T lba n data).1 = .ok) :
    (s.storeImmediate T lba n data).2.lockingStatus T ≠ .lockedOther := by
  have h_lock : s.lockingStatus T ≠ .lockedOther := by
    intro h_lock
    rw [Scsi.storeImmediate_of_locked h_lock h_data] at h
    exact absurd h (by simp)
  obtain ⟨evs, h_trans⟩ := Scsi.transfers_storeImmediate (T := T) s lba n data
  rw [h_trans.does.lockingStatus]
  exact h_lock

/-- **A WRITE that is accepted** is the same in two forms exactly when the flag
is. A bit of the address of the 6-byte form stands where the others have it. -/
theorem writeVerify_iff_of_accepts (hc : c.Asks .write size lba n)
    (hd : d.Asks .write size' lba n) (hn : 1 ≤ n) (h : s.Accepts T lba n data) :
    s.writeVerify T c data = s.writeVerify T d data ↔ takesFua size lba = takesFua size' lba := by
  unfold Scsi.writeVerify takesFua
  rw [range_of_asks hc, range_of_asks hd, ← fuaBit_of_asks hc, ← fuaBit_of_asks hd]
  generalize Scsi.fuaBit c = fua
  generalize Scsi.fuaBit d = fua'
  dsimp only
  rw [validateRequest_of_asks s hc, validateRequest_of_asks s hd, h.1]
  dsimp only
  by_cases h_data : data = []
  · -- an R2T follows, and has the flag
    have h_pos : n ≠ 0 := fun h_zero => by simp [h_zero] at hn
    rw [if_neg (not_not.mpr h_data), if_neg (not_not.mpr h_data), if_pos h_pos, if_pos h_pos]
    constructor
    · -- the R2T for the rest has the flag
      intro h_eq
      have h_r2t := congrArg (fun r => r.1.r2t.fua) h_eq
      exact h_r2t
    · intro h_eq
      rw [h_eq]
  · rw [if_pos h_data, if_pos h_data]
    have h_ok := h.2 h_data
    have h_lock := unlocked_of_stored h_data h_ok
    generalize s.storeImmediate T lba n data = r at h_ok h_lock
    obtain ⟨rc, s'⟩ := r
    obtain rfl : rc = .ok := h_ok
    dsimp only at h_lock ⊢
    split
    · -- the command is complete, and the flag decides about a sync
      have h_sync := sync_ne_self h_lock
      cases fua <;> cases fua' <;> simp [h_sync, h_sync.symm]
    · constructor
      · intro h_eq
        have h_r2t := congrArg (fun r => r.1.r2t.fua) h_eq
        exact h_r2t
      · intro h_eq
        rw [h_eq]

/-- **Two forms of a command are interchangeable** in everything but a WRITE
whose address sets the bit that the other form has for FUA. That bit is bit 19
of the address in the 6-byte form, where byte 1 still belongs to the address. A
WRITE that is refused does not get as far as looking at it. -/
theorem interchangeable_iff (fuel : ℕ) (lun : UInt64) (hc : c.Asks k size lba n)
    (hd : d.Asks k size' lba n) (hn : 1 ≤ n) :
    s.send T fuel lun c data = s.send T fuel lun d data ↔
      (k = .write → s.Accepts T lba n data → takesFua size lba = takesFua size' lba) := by
  -- the forms of a command have one handler, which sees the block that came
  have h_send : ∀ {e : Cdb} {z : CdbSize}, e.Asks k z lba n → s.send T fuel lun e data =
      match k with
      | .read => .ok (s.read_ T e, s)
      | .write => .ok (s.writeVerify T e data) := by
    intro e z he
    unfold Scsi.send
    rw [opcode_of_asks he]
    cases k <;> cases z <;> rfl
  rw [h_send hc, h_send hd]
  cases k with
  | read => exact iff_of_true (by rw [read_of_asks hc hd]) (by simp)
  | write =>
    dsimp only
    rw [Except.ok.injEq]
    by_cases h : s.Accepts T lba n data
    · rw [writeVerify_iff_of_accepts hc hd hn h]
      simp [h]
    · exact iff_of_true (writeVerify_of_not_accepts hc hd h) fun _ h' => absurd h' h

/-- Block 2 of a device of 8, in the 6-byte and in the 10-byte form. -/
theorem interchangeable_block :
    (Sample.conn 8 []).scsi.send (Sample.target 8) 0 1 (CdbSize.cdb .write 2 1 .cs6)
        (Sample.block 1) =
      (Sample.conn 8 []).scsi.send (Sample.target 8) 0 1 (CdbSize.cdb .write 2 1 .cs10)
        (Sample.block 1) :=
  (interchangeable_iff 0 1 (asks_cdb (by unfold CdbSize.Represents; decide))
    (asks_cdb (by unfold CdbSize.Represents; decide)) (by decide)).2
    fun _ _ => by decide

/-- The first address with the bit set: the session that WRITE(6) opens has the
FUA flag. -/
theorem interchangeable_fails :
    (CdbSize.cdb .write 0x80000 1 .cs6).Asks .write .cs6 0x80000 1 ∧
      (CdbSize.cdb .write 0x80000 1 .cs10).Asks .write .cs10 0x80000 1 ∧
      (Sample.conn 0x80001 []).scsi.send (Sample.target 0x80001) 0 1
          (CdbSize.cdb .write 0x80000 1 .cs6) [] ≠
        (Sample.conn 0x80001 []).scsi.send (Sample.target 0x80001) 0 1
          (CdbSize.cdb .write 0x80000 1 .cs10) [] := by
  refine ⟨asks_cdb (by unfold CdbSize.Represents; decide),
    asks_cdb (by unfold CdbSize.Represents; decide), fun h_eq => ?_⟩
  have h_fua := congrArg (fun r => r.toOption.map fun r => r.1.r2t.fua) h_eq
  exact absurd h_fua (by decide +kernel)

end IscsiTarget
