import IscsiTarget.Lib.Medium
import IscsiTarget.Model.Header

/-!
# Backends

`Backend β` is the abstract class `backend`: its virtual functions over the
backend's own state `β`. Nothing is said about what they do, so a statement
about every `Backend` is a statement about every pattern of results.

`Backend.Stores B medium` is the contract a working backend keeps, for requests
inside the device: a write that reports success has stored exactly the blocks it
was given, a trim that reports success has zeroed exactly its range, a read that
reports success delivers what is stored, and nothing else changes the medium.

`ramBackend` is the smallest backend that keeps it: a medium in memory and a
script that tells which of the next calls fail.
-/

namespace IscsiTarget

/-- `cmpwrite_result_t`. A mismatch is no failure of the backend: it has read
the blocks, and left them alone. -/
inductive CmpwriteResult
  | ok
  | mismatch
  | readError
  | writeError
  deriving DecidableEq, Repr

/-- The virtual functions of class `backend`. A read that fails delivers no
buffer. The block size is a constant of each backend, positive and small enough
for the `uint32_t` that `session::set_block_size` takes.

`cmpwrite` reads the two buffers it is handed only as far as it gets: neither of
them before it has read a block, then the one to compare with, and the one to write
when the block is what it should be. Its result tells how far that is, but for the
two failures: an SD card returns `CWR_READ_ERROR` for the seek before the write as
well, and a write may fail before the data is touched. `failsLate` says which. -/
structure Backend (β : Type) where
  getSizeInBlocks : β → UInt64
  getBlockSize : ℕ
  getBlockSize_pos : 0 < getBlockSize
  getBlockSize_lt : getBlockSize < 2 ^ 32
  sync : β → Bool × β
  write : β → UInt64 → UInt32 → Bytes → Bool × β
  trim : β → UInt64 → UInt32 → Bool × β
  read : β → UInt64 → UInt32 → Option Bytes × β
  cmpwrite : β → UInt64 → UInt32 → Bytes → Bytes → CmpwriteResult × β
  /-- Whether a `cmpwrite` that ends with a read error has compared a block
  before, and one that ends with a write error has touched the data to be
  written. -/
  failsLate : β → UInt64 → UInt32 → Bytes → Bytes → Bool

namespace Backend

variable {β : Type}

/-- The `n` blocks from `blockNr` on lie inside the device. -/
def InRange (B : Backend β) (d : β) (blockNr : UInt64) (n : UInt32) : Prop :=
  blockNr.toNat + n.toNat ≤ (B.getSizeInBlocks d).toNat

/-- The contract of a backend whose contents are `medium`. It says what a call
has done that reports success, and nothing of the contents after one that fails. -/
structure Stores (B : Backend β) (medium : β → Medium UInt8) : Prop where
  /-- A write that succeeds stores exactly the blocks it is given. -/
  write_ok : ∀ d blockNr n data, B.InRange d blockNr n →
    n.toNat * B.getBlockSize ≤ data.length → (B.write d blockNr n data).1 = true →
    medium (B.write d blockNr n data).2 =
      (medium d).store (blockNr.toNat * B.getBlockSize) (data.take (n.toNat * B.getBlockSize))
  /-- A trim that succeeds zeroes exactly its range. -/
  trim_ok : ∀ d blockNr n, B.InRange d blockNr n → (B.trim d blockNr n).1 = true →
    medium (B.trim d blockNr n).2 =
      (medium d).clear (blockNr.toNat * B.getBlockSize) (n.toNat * B.getBlockSize)
  /-- A read that succeeds delivers what is stored. -/
  read_ok : ∀ d blockNr n buf, B.InRange d blockNr n → (B.read d blockNr n).1 = some buf →
    buf = (medium d).slice (blockNr.toNat * B.getBlockSize) (n.toNat * B.getBlockSize)
  read_medium : ∀ d blockNr n, medium (B.read d blockNr n).2 = medium d
  sync_medium : ∀ d, medium (B.sync d).2 = medium d
  /-- The device keeps its size. -/
  write_size : ∀ d blockNr n data, B.InRange d blockNr n →
    B.getSizeInBlocks (B.write d blockNr n data).2 = B.getSizeInBlocks d
  trim_size : ∀ d blockNr n, B.InRange d blockNr n →
    B.getSizeInBlocks (B.trim d blockNr n).2 = B.getSizeInBlocks d
  read_size : ∀ d blockNr n, B.getSizeInBlocks (B.read d blockNr n).2 = B.getSizeInBlocks d
  sync_size : ∀ d, B.getSizeInBlocks (B.sync d).2 = B.getSizeInBlocks d

end Backend

/-! ### A backend in memory -/

/-- A medium in memory. `script` holds the outcome of the next calls, the first
one at its head; when it is used up every call succeeds. -/
structure Ram where
  contents : Medium UInt8
  script : List Bool := []

namespace Ram

/-- One call: its outcome, and the effect if it succeeds. -/
def call (r : Ram) (effect : Medium UInt8) : Bool × Ram :=
  let ok := r.script.headD true
  (ok, { contents := if ok then effect else r.contents, script := r.script.tail })

end Ram

/-- The backend in memory, with blocks of `bs` bytes and `size` of them. Every
call ends as its script says, and succeeds when that has come to its end. -/
def ramBackend (bs : ℕ) (hpos : 0 < bs) (hlt : bs < 2 ^ 32) (size : UInt64) : Backend Ram where
  getSizeInBlocks _ := size
  getBlockSize := bs
  getBlockSize_pos := hpos
  getBlockSize_lt := hlt
  sync r := r.call r.contents
  write r blockNr n data :=
    r.call (r.contents.store (blockNr.toNat * bs) (data.take (n.toNat * bs)))
  trim r blockNr n := r.call (r.contents.clear (blockNr.toNat * bs) (n.toNat * bs))
  read r blockNr n :=
    match r.call r.contents with
    | (true, r') => (some (r.contents.slice (blockNr.toNat * bs) (n.toNat * bs)), r')
    | (false, r') => (none, r')
  cmpwrite r blockNr n dataWrite dataCompare :=
    let off := blockNr.toNat * bs
    let len := n.toNat * bs
    if r.script.headD true = false then (.readError, { r with script := r.script.tail })
    else if r.contents.slice off len = dataCompare.take len then
      (.ok, { contents := r.contents.store off (dataWrite.take len), script := r.script.tail })
    else (.mismatch, { r with script := r.script.tail })
  -- the one call that can fail is the reading of the blocks
  failsLate _ _ _ _ _ := false

/-- The backend in memory keeps the contract. A call that is scripted to fail
leaves the contents as they are. -/
theorem ramBackend_stores (bs : ℕ) (hpos : 0 < bs) (hlt : bs < 2 ^ 32) (size : UInt64) :
    (ramBackend bs hpos hlt size).Stores Ram.contents where
  write_ok := by
    intro r blockNr n data _ _ hok
    simp only [ramBackend, Ram.call] at hok ⊢
    rw [if_pos hok]
  trim_ok := by
    intro r blockNr n _ hok
    simp only [ramBackend, Ram.call] at hok ⊢
    rw [if_pos hok]
  read_ok := by
    intro r blockNr n buf _ hok
    simp only [ramBackend, Ram.call] at hok
    cases hs : r.script.headD true with
    | true =>
      rw [hs] at hok
      exact (Option.some.inj hok).symm
    | false =>
      rw [hs] at hok
      exact absurd hok (by simp)
  read_medium := by
    intro r blockNr n
    simp only [ramBackend, Ram.call]
    cases r.script.headD true <;> rfl
  sync_medium := by
    intro r
    simp [ramBackend, Ram.call]
  write_size _ _ _ _ _ := rfl
  trim_size _ _ _ _ := rfl
  read_size _ _ _ := rfl
  sync_size _ := rfl

end IscsiTarget
