import Mathlib

/-!
# Builds

The source is compiled for four kinds of machine. A `Build` stands for one of
them; the functions below are the preprocessor constants that depend on it.
-/

namespace IscsiTarget

/-- The platform the code is compiled for. `posix` is every build without
`ARDUINO`. -/
inductive Build
  | posix
  | esp32
  | teensy41
  | rp2040w
  deriving DecidableEq, Repr

namespace Build

variable (b : Build)

/-- `defined(ARDUINO)`. -/
def arduino : Bool :=
  match b with
  | .posix => false
  | _ => true

/-- `!defined(TEENSY4_1) && !defined(RP2040W)`: the builds with threads, and
with reservations. -/
def threads : Bool :=
  match b with
  | .posix => true
  | .esp32 => true
  | .teensy41 => false
  | .rp2040w => false

/-- `MAX_DATA_SEGMENT_SIZE`. -/
def maxDataSegmentSize : ℕ := if b.arduino then 8192 else 256 * 1024 * 1024

/-- `max_msg_depth`. -/
def maxMsgDepth : UInt32 := if b.arduino then 1 else 128

/-- `MAX_WS_LEN`. -/
def maxWsLen : UInt32 := if b.arduino then 2 else 256

/-- `MAX_UNMAP_BLOCKS`. -/
def maxUnmapBlocks : UInt32 := if b = .esp32 then 256 else 8192

/-- The value a `size_t` keeps of a 64-bit one. -/
def sizeT (v : ℕ) : ℕ := if b.arduino then v % 2 ^ 32 else v % 2 ^ 64

theorem maxDataSegmentSize_pos : 0 < b.maxDataSegmentSize := by
  unfold maxDataSegmentSize
  split <;> omega

end Build

end IscsiTarget
