import IscsiTarget.Model.Backend
import IscsiTarget.Model.RangeLock

/-!
# The SD-card backends

Three backends keep the disk in a file on an SD card: `backend_sdcard` (SdFat),
`backend_sdcard_teensy41` and `backend_sdcard_rp2040w` (FatFs). The file has a position,
which every call moves. How a call ends is a label of the step: how many bytes it moved, or
that it failed.

Only `cmpwrite` is here. It is one loop in all three, which compares a block and writes it
before it goes on with the next one. Left out: the LEDs, the counters, and what flushes the
cache or waits for the card to be ready.
-/

namespace IscsiTarget

open LockedSections

/-- `get_block_size` of all three. -/
def sdBlockSize : ℕ := 512

/-- The file on the card. -/
structure SdFile where
  contents : Medium UInt8
  pos : ℕ := 0

/-- `cmpwrite`, with its arguments. -/
inductive SdSection
  | cmpwrite (blockNr : UInt64) (nBlocks : UInt32) (dataWrite dataCompare : Bytes)
  deriving DecidableEq, Repr

/-- The calls of a turn of the loop: the block is read and compared, and then
written in the same turn. -/
inductive SdStage
  | seekRead
  | read
  | seekWrite
  | write
  deriving DecidableEq, Repr

/-- How far `cmpwrite` is. The other functions are not split into steps, since
nothing is said about what comes between theirs. -/
inductive SdWork
  /-- Before a call of turn `i`. -/
  | turn (i : ℕ) (stage : SdStage)
  | compared (result : CmpwriteResult)
  deriving DecidableEq, Repr

/-- The offset of a block, in 64 bits. -/
def sdOffset (blockNr : UInt64) : ℕ := (blockNr * UInt64.ofNat sdBlockSize).toNat

/-- One call of `cmpwrite`. A seek fails when `rc` is `none`, and of the others
`rc` is the number of bytes they have moved. -/
def sdAct (rc : Option ℕ) (sec : SdSection) (w : SdWork) (f : SdFile) : Option (SdWork × SdFile) :=
  match sec, w with
  | .cmpwrite blockNr nBlocks dataWrite dataCompare, .turn i stage =>
    if i < nBlocks.toNat then
      let offset := sdOffset (blockNr + UInt64.ofNat i)
      match stage, rc with
      | .seekRead, none => some (.compared .readError, f)
      | .seekRead, some _ => some (.turn i .read, { f with pos := offset })
      | .read, none => some (.compared .readError, f)
      | .read, some k =>
        if k ≤ sdBlockSize then
          let f' := { f with pos := f.pos + k }
          if k ≠ sdBlockSize then some (.compared .readError, f')
          else if f.contents.slice f.pos sdBlockSize =
              (dataCompare.drop (i * sdBlockSize)).take sdBlockSize then
            some (.turn i .seekWrite, f')
          else some (.compared .mismatch, f')
        else none
      | .seekWrite, none => some (.compared .readError, f)
      | .seekWrite, some _ => some (.turn i .write, { f with pos := offset })
      | .write, none => some (.compared .writeError, f)
      | .write, some k =>
        if k ≤ sdBlockSize then
          let block := (dataWrite.drop (i * sdBlockSize)).take k
          let f' := { contents := f.contents.store f.pos block, pos := f.pos + k }
          if k ≠ sdBlockSize then some (.compared .writeError, f')
          else some (.turn (i + 1) .seekRead, f')
        else none
    else some (.compared .ok, f)
  | _, _ => none

/-- `cmpwrite` as a program. `serial` tells whether it holds
`serial_access_lock`, the one lock there is: on these machines `lock_range` does
not lock anything. -/
def sdProgram (serial : Bool) : Program Unit SdSection SdWork SdFile (Option ℕ) where
  locks _ := ⟨if serial then [()] else [], by split <;> simp⟩
  start _ := .turn 0 .seekRead
  act := sdAct
  finished
    | .turn _ _ => false
    | .compared _ => true
  goesOn _ := true
  env _ _ := none

/-- `backend_sdcard`, which runs on the ESP32 and the RP2040W. -/
def backendSdcard (b : Build) : Program Unit SdSection SdWork SdFile (Option ℕ) :=
  sdProgram (b == .rp2040w)

/-- `backend_sdcard_teensy41`. -/
def backendSdcardTeensy41 : Program Unit SdSection SdWork SdFile (Option ℕ) := sdProgram false

/-- `backend_sdcard_rp2040w`. -/
def backendSdcardRp2040w : Program Unit SdSection SdWork SdFile (Option ℕ) := sdProgram false

end IscsiTarget
