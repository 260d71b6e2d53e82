import IscsiTarget.Model.Target

/-!
# Class `scsi`: the way to the backend

The state of `scsi` is the backend behind it and the reservation; `history` is
the trace. This file has the reservation, the five functions that reach the
backend (`sync`, `write`, `trim`, `read`, `cmpwrite`) and the two overloads of
`validate_request`. `uint64_t` and `uint32_t` arithmetic is that of `UInt64` and
`UInt32`, so a subtraction or an addition wraps where the source's does.

Left out: `io_stats_t`, the opcode counters and the log.
-/

namespace IscsiTarget

/-- `scsi_lock_status`: nobody has the device, the thread itself has it, or
another one. -/
inductive LockStatus
  | notLocked
  | locked
  | lockedOther
  deriving DecidableEq, Repr

/-- `scsi_rw_result`. The commands map the failures to sense data one by one,
and not all of them everywhere. -/
inductive RwResult
  | ok
  | failRw
  | failLocked
  | failGeneral
  | failMismatch
  deriving DecidableEq, Repr

/-- The value of the enumerator; `rw_ok` is the first one. It matters where a
result is compared with `false`. -/
def RwResult.value : RwResult → ℕ
  | .ok => 0
  | .failRw => 1
  | .failLocked => 2
  | .failGeneral => 3
  | .failMismatch => 4

/-- The comparison `result == false`, which compares the enumerator with zero. -/
def RwResult.eqFalse (rc : RwResult) : Bool := rc.value == 0

/-- `scsi_opcode`. -/
inductive ScsiOpcode
  | testUnitReady
  | requestSense
  | read6
  | write6
  | seek
  | inquiry
  | reserve6
  | release6
  | modeSense6
  | readCapacity10
  | read10
  | write10
  | writeVerify10
  | prefetch10
  | syncCache10
  | writeSame10
  | unmap
  | read16
  | compareAndWrite
  | write16
  | prefetch16
  | writeSame16
  | getLbaStatus
  | reportLuns
  | repSupOper
  | read12
  | write12
  | other
  deriving DecidableEq, Repr

/-- The enumerator of an opcode byte. What the target does not implement is one
of its own here, since all of it is treated alike. -/
def ScsiOpcode.ofByte (b : UInt8) : ScsiOpcode :=
  match b.toNat with
  | 0x00 => .testUnitReady
  | 0x02 => .requestSense
  | 0x08 => .read6
  | 0x0a => .write6
  | 0x0b => .seek
  | 0x12 => .inquiry
  | 0x16 => .reserve6
  | 0x17 => .release6
  | 0x1a => .modeSense6
  | 0x25 => .readCapacity10
  | 0x28 => .read10
  | 0x2a => .write10
  | 0x2e => .writeVerify10
  | 0x34 => .prefetch10
  | 0x35 => .syncCache10
  | 0x41 => .writeSame10
  | 0x42 => .unmap
  | 0x88 => .read16
  | 0x89 => .compareAndWrite
  | 0x8a => .write16
  | 0x90 => .prefetch16
  | 0x93 => .writeSame16
  | 0x9e => .getLbaStatus
  | 0xa0 => .reportLuns
  | 0xa3 => .repSupOper
  | 0xa8 => .read12
  | 0xaa => .write12
  | _ => .other

/-- The opcodes whose WRPROTECT field has to be zero. -/
def ScsiOpcode.checksWrProtect : ScsiOpcode → Bool
  | .write10 | .write16 | .writeVerify10 | .writeSame10 | .writeSame16 => true
  | _ => false

/-- `opcode == o_write_same_10 || opcode == o_write_same_16`. -/
def ScsiOpcode.isWriteSame : ScsiOpcode → Bool
  | .writeSame10 | .writeSame16 => true
  | _ => false

/-- The opcode of a command. -/
def Cdb.opcode (cdb : Cdb) : ScsiOpcode := ScsiOpcode.ofByte (getElem cdb 0 Cdb.lt0)

/-! ### Sense data -/

/-- The fixed-format sense data all the `error_*` functions return. -/
def fixedSense (key asc ascq : UInt8) : Bytes :=
  [0x70, 0x00, key, 0x00, 0x00, 0x00, 0x00, 0x0a, 0x00, 0x00, 0x00, 0x00, asc, ascq,
    0x00, 0x00, 0x00, 0x00]

def errorReservationConflict1 : Bytes := fixedSense 0x06 0x29 0x00
def errorReservationConflict2 : Bytes := fixedSense 0x05 0x2c 0x09
def errorNotImplemented : Bytes := fixedSense 0x05 0x20 0x00
def errorWriteError : Bytes := fixedSense 0x03 0x03 0x00
def errorReadError : Bytes := fixedSense 0x03 0x11 0x00
def errorCompareAndWriteCount : Bytes := fixedSense 0x05 0x24 0x00
def errorOutOfRange : Bytes := fixedSense 0x05 0x21 0x00
def errorMiscompare : Bytes := fixedSense 0x0e 0x1d 0x00
def errorInvalidField : Bytes := fixedSense 0x05 0x24 0x00

/-! ### The state -/

/-- The state of `scsi`, and the trace. -/
structure Scsi (β : Type) where
  disk : β
  lockedBy : Option ℕ := none
  history : List Event := []

namespace Scsi

variable {β : Type}

/-- Append an event to the trace. -/
def note (s : Scsi β) (e : Event) : Scsi β := { s with history := s.history ++ [e] }

variable (T : Target β) (s : Scsi β)

/-- `get_size_in_blocks`. -/
def getSizeInBlocks : UInt64 := T.backend.getSizeInBlocks s.disk

/-! ### Reservations -/

/-- `locking_status`, from the thread that asks. On a target without threads
there are no reservations. -/
def lockingStatus : LockStatus :=
  if T.build.threads then
    match s.lockedBy with
    | none => .notLocked
    | some id => if id = T.thread then .locked else .lockedOther
  else .notLocked

/-- `reserve_device`. A reservation that another thread has is kept, and one's
own is taken again without effect. -/
def reserveDevice : LockStatus × Scsi β :=
  if T.build.threads then
    match s.lockedBy with
    | some id => if id = T.thread then (.locked, s) else (.lockedOther, s)
    | none => (.locked, { s with lockedBy := some T.thread })
  else (.locked, s)

/-- `unlock_device`. Only the thread that has the reservation can give it back;
the result says whether it has. -/
def unlockDevice : Bool × Scsi β :=
  if T.build.threads then
    match s.lockedBy with
    | none => (false, s)
    | some id => if id = T.thread then (true, { s with lockedBy := none }) else (false, s)
  else (true, s)

/-! ### Backend calls -/

/-- The end of every call that reports success or failure: the backend moves on,
the call enters the trace, and `result ? rw_ok : rw_fail_general`. -/
def afterCall (call : IoCall) (r : Bool × β) : RwResult × Scsi β :=
  (if r.1 then .ok else .failGeneral,
    { s with disk := r.2, history := s.history ++ [.io call r.1] })

/-- `sync`. -/
def sync : RwResult × Scsi β :=
  if s.lockingStatus T ≠ .lockedOther then s.afterCall .sync (T.backend.sync s.disk)
  else (.failLocked, s)

/-- The loop of `write` that compares every block with a block of zeros. -/
def isZero (n : UInt32) (data : Bytes) : Bool := (data.take (n.toNat * T.blockSize)).all (· == 0)

/-- `write`. With trim level 2 a write of zeros becomes a trim. The range is not
looked at: that is up to the caller, and to the backend. -/
def write (blockNr : UInt64) (n : UInt32) (data : Bytes) : RwResult × Scsi β :=
  if s.lockingStatus T ≠ .lockedOther then
    if T.trimLevel = 2 ∧ isZero T n data = true then
      s.afterCall (.trim blockNr n) (T.backend.trim s.disk blockNr n)
    else s.afterCall (.write blockNr n data) (T.backend.write s.disk blockNr n data)
  else (.failLocked, s)

/-- The loop of `trim` for trim level 0, with `k` blocks to go. It ends with the
first block that cannot be written. -/
def writeZeros : ℕ → UInt64 → Scsi β → RwResult × Scsi β
  | 0, _, s => (.ok, s)
  | k + 1, blockNr, s =>
    match s.write T blockNr 1 (List.replicate T.blockSize 0) with
    | (.ok, s') => writeZeros k (blockNr + 1) s'
    | (rc, s') => (rc, s')

/-- `trim`. At level 0 the backend is never asked to trim, and gets blocks of
zeros to write instead. -/
def trim (blockNr : UInt64) (n : UInt32) : RwResult × Scsi β :=
  if s.lockingStatus T ≠ .lockedOther then
    if T.trimLevel = 0 then writeZeros T n.toNat blockNr s
    else s.afterCall (.trim blockNr n) (T.backend.trim s.disk blockNr n)
  else (.failLocked, s)

/-- `read`: the buffer, when the result is `rw_ok`. A backend that fails is
reported as `rw_fail_general`. -/
def read (blockNr : UInt64) (n : UInt32) : Except RwResult Bytes × Scsi β :=
  if s.lockingStatus T ≠ .lockedOther then
    match T.backend.read s.disk blockNr n with
    | (some buf, disk) =>
      (.ok buf, { s with disk := disk, history := s.history ++ [.io (.read blockNr n) true] })
    | (none, disk) =>
      (.error .failGeneral,
        { s with disk := disk, history := s.history ++ [.io (.read blockNr n) false] })
  else (.error .failLocked, s)

/-- `cmpwrite`. Both errors of the backend become `rw_fail_rw`, and a mismatch
has a result of its own. -/
def cmpwrite (blockNr : UInt64) (n : UInt32) (dataWrite dataCompare : Bytes) :
    RwResult × Scsi β :=
  if s.lockingStatus T ≠ .lockedOther then
    match T.backend.cmpwrite s.disk blockNr n dataWrite dataCompare with
    | (result, disk) =>
      (match result with
        | .ok => .ok
        | .mismatch => .failMismatch
        | .readError => .failRw
        | .writeError => .failRw,
        { s with
          disk := disk
          history := s.history ++ [.io (.cmpwrite blockNr n) (result == .ok)] })
  else (.failLocked, s)

/-! ### Validation -/

/-- The checks `validate_request` makes when it is given the command: the
protection bits, ANCHOR without UNMAP, and the length of a WRITE SAME. -/
def validateCdb (n : UInt32) (cdb : Cdb) : Option Bytes :=
  let opcode := cdb.opcode
  if (opcode = .read10 ∨ opcode = .read16) ∧ getElem cdb 1 Cdb.lt1 >>> 5 ≠ 0 then
    some errorInvalidField
  else if opcode.isWriteSame ∧ getElem cdb 1 Cdb.lt1 &&& 16 = 16 ∧
      getElem cdb 1 Cdb.lt1 &&& 8 = 0 then
    some errorInvalidField
  else if opcode.isWriteSame ∧ n > T.build.maxWsLen then some errorInvalidField
  else if opcode.checksWrProtect ∧ getElem cdb 1 Cdb.lt1 >>> 5 ≠ 0 then some errorInvalidField
  else none

/-- `validate_request` of a range: sense data in case of a problem. The
subtraction and the sum are in 64 bits, and the first one may wrap around. -/
def validateRequest (lba : UInt64) (n : UInt32) (cdb : Option Cdb) : Option Bytes :=
  if lba > s.getSizeInBlocks T - n.toUInt64 then some errorOutOfRange
  else if lba + n.toUInt64 < lba then some errorOutOfRange
  else
    match cdb with
    | some cdb => validateCdb T n cdb
    | none => none

/-- `validate_request` of one address. -/
def validateLba (lba : UInt64) : Option Bytes :=
  if lba ≥ s.getSizeInBlocks T then some errorOutOfRange else none

end Scsi

end IscsiTarget
