import IscsiTarget.Model.Backend
import IscsiTarget.Model.RangeLock

/-!
# The file backend

`backend_file` serves a file. Its functions are sections of I/O under locks: one system
call each, except for `cmpwrite`, which reads and compares block by block and then writes.
How a system call ends is a label of the step: how many bytes it moved, or that it failed.

The source is compiled for three kinds of system, which lock and trim differently.
-/

namespace IscsiTarget

open LockedSections

/-- The system the code is compiled for: `linux`, `__MINGW32__` or another one.
They differ in how `trim` is done, and in the locks. -/
inductive Os
  | linux
  | mingw
  | other
  deriving DecidableEq, Repr

structure FilePlatform where
  build : Build
  os : Os

namespace FilePlatform

variable (p : FilePlatform)

/-- `backend_file::get_block_size`. -/
def blockSize : ℕ := if p.build.arduino then 512 else 4096

theorem blockSize_pos : 0 < p.blockSize := by
  unfold blockSize
  split <;> omega

/-- The mutexes: those of `lock_range`, and `io_lock` above them. -/
abbrev Lock : Type := WithTop (Fin p.build.nBackendLocks)

/-- The locks of an I/O: `io_lock` on MinGW, else those of `lock_range`. -/
def ioLocks (blockNr : UInt64) (nBlocks : UInt32) : Ascending p.Lock where
  toList :=
    if p.os = .mingw then [⊤]
    else (p.build.lockRange blockNr nBlocks).toList.map WithTop.some
  ascending := by
    split
    · exact List.pairwise_singleton _ _
    · exact List.pairwise_map.mpr
        ((p.build.lockRange blockNr nBlocks).ascending.imp WithTop.coe_lt_coe.mpr)

end FilePlatform

/-- I/O under one set of locks. A function is one section or, where `trim`
writes zeros, one for each block. -/
inductive FileSection
  | write (blockNr : UInt64) (nBlocks : UInt32) (data : Bytes)
  /-- `fallocate` with `FALLOC_FL_PUNCH_HOLE`. -/
  | punchHole (blockNr : UInt64) (nBlocks : UInt32)
  | read (blockNr : UInt64) (nBlocks : UInt32)
  | cmpwrite (blockNr : UInt64) (nBlocks : UInt32) (dataWrite dataCompare : Bytes)
  deriving DecidableEq, Repr

/-- How far a thread is with its I/O. Only `cmpwrite` has a loop, whose turns
are counted. -/
inductive FileWork
  /-- Before its system call; for `cmpwrite`, before turn `i` of the loop. -/
  | turn (i : ℕ)
  | done (ok : Bool)
  | compared (result : CmpwriteResult)
  deriving DecidableEq, Repr

/-- A virtual function of `backend_file`, with its arguments. -/
inductive FileOp
  | write (blockNr : UInt64) (nBlocks : UInt32) (data : Bytes)
  | trim (blockNr : UInt64) (nBlocks : UInt32)
  | read (blockNr : UInt64) (nBlocks : UInt32)
  | cmpwrite (blockNr : UInt64) (nBlocks : UInt32) (dataWrite dataCompare : Bytes)
  deriving DecidableEq, Repr

/-- `pwrite`: the number of bytes written, if it works, and the file. No file
reaches past an `off_t`. -/
def pwrite (rc : Option ℕ) (data : Bytes) (nBytes off : ℕ) (file : Medium UInt8) :
    Option (Option ℕ × Medium UInt8) :=
  match rc with
  | none => some (none, file)
  | some k =>
    if k ≤ nBytes ∧ off + k < 2 ^ 63 then some (some k, file.store off (data.take k)) else none

namespace FilePlatform

variable (p : FilePlatform)

/-- The locks an I/O takes. `write` locks the first block of its range only, and
the hole is punched without a lock. -/
def locks : FileSection → Ascending p.Lock
  | .write blockNr _ _ => p.ioLocks blockNr 1
  | .punchHole _ _ => ⟨[], .nil⟩
  | .read blockNr nBlocks => p.ioLocks blockNr nBlocks
  | .cmpwrite blockNr nBlocks _ _ => p.ioLocks blockNr nBlocks

/-- The sections a function works through. Without `fallocate`, `trim` writes
block after block. -/
def sections : FileOp → List FileSection
  | .write blockNr nBlocks data => [.write blockNr nBlocks data]
  | .trim blockNr nBlocks =>
    if p.os = .linux then [.punchHole blockNr nBlocks]
    else (List.range nBlocks.toNat).map fun i =>
      .write (blockNr + UInt64.ofNat i) 1 (List.replicate p.blockSize 0)
  | .read blockNr nBlocks => [.read blockNr nBlocks]
  | .cmpwrite blockNr nBlocks dataWrite dataCompare =>
    [.cmpwrite blockNr nBlocks dataWrite dataCompare]

/-- The offset of a block: `block_nr * block_size`, in 64 bits. -/
def offset (blockNr : UInt64) : ℕ := (blockNr * UInt64.ofNat p.blockSize).toNat

/-- One system call. `rc` is what it returns, the number of bytes that were
moved; a result it cannot have leads nowhere. -/
def act (rc : Option ℕ) (sec : FileSection) (w : FileWork) (file : Medium UInt8) :
    Option (FileWork × Medium UInt8) :=
  match sec, w with
  | .write blockNr nBlocks data, .turn _ =>
    let nBytes := nBlocks.toNat * p.blockSize
    (pwrite rc data nBytes (p.offset blockNr) file).map fun (rc, file) =>
      (.done (rc == some nBytes), file)
  | .punchHole blockNr nBlocks, .turn _ =>
    let nBytes := nBlocks.toNat * p.blockSize
    match rc with
    | none => some (.done false, file)
    | some _ =>
      if p.offset blockNr + nBytes < 2 ^ 63 then
        some (.done true, file.clear (p.offset blockNr) nBytes)
      else none
  | .read _ nBlocks, .turn _ =>
    let nBytes := nBlocks.toNat * p.blockSize
    match rc with
    | none => some (.done false, file)
    | some k => if k ≤ nBytes then some (.done (k == nBytes), file) else none
  | .cmpwrite blockNr nBlocks dataWrite dataCompare, .turn i =>
    if i < nBlocks.toNat then
      if rc = some p.blockSize then
        if file.slice (p.offset (blockNr + UInt64.ofNat i)) p.blockSize =
            (dataCompare.drop (i * p.blockSize)).take p.blockSize then some (.turn (i + 1), file)
        else some (.compared .mismatch, file)
      else some (.compared .readError, file)
    else
      let nBytes := nBlocks.toNat * p.blockSize
      (pwrite rc dataWrite nBytes (p.offset blockNr) file).map fun (rc, file) =>
        (.compared (if rc = some nBytes then .ok else .writeError), file)
  | _, _ => none

/-- The functions of `backend_file`, as threads call them. `trim` stops at the
first write that fails. -/
def program : Program p.Lock FileSection FileWork (Medium UInt8) (Option ℕ) where
  locks := p.locks
  start _ := .turn 0
  act := p.act
  finished
    | .turn _ => false
    | _ => true
  goesOn w := w != .done false
  env _ _ := none

end FilePlatform

end IscsiTarget
