import IscsiTarget.Model.SdBackend

/-!
# `write` and `read` on an SD card

Each of the three SD-card backends puts the file at the offset of the block and asks its
library for one transfer. The library moves some of the bytes, from where the file is,
leaves the file behind them and says how many they were. How many it moves, and whether the
file can be put at an offset at all, is not in the source: it is `SdCalls`.

`backend_sdcard` and `backend_sdcard_teensy41` ask once. `backend_sdcard_rp2040w` asks five
times, until a transfer moves everything. It does not put the file back in between.
-/

namespace IscsiTarget

/-- How the calls of one `write` or `read` end. Of a transfer it says how many
bytes it can move, which may be more than it is asked for. -/
structure SdCalls where
  /-- Whether `lseek` (or `seekSet`) works. -/
  seeks : Bool
  /-- How many bytes the transfer of turn `i` can move. -/
  moves : ℕ → ℕ

/-- The bytes of `nBlocks` blocks, as a `size_t`, which has 32 bits on these
machines. -/
def sdBytes (nBlocks : UInt32) : ℕ := nBlocks.toNat * sdBlockSize % 2 ^ 32

namespace SdFile

/-- `lseek` and `seekSet`. -/
def lseek (f : SdFile) (offset : ℕ) : SdFile := { f with pos := offset }

/-- `file.write(data, nBytes, ..)`, which moves `moves` bytes unless fewer are
asked for. Tells whether it moved all of them. -/
def write (f : SdFile) (data : Bytes) (nBytes moves : ℕ) : Bool × SdFile :=
  let k := min moves nBytes
  (k == nBytes, { contents := f.contents.store f.pos (data.take k), pos := f.pos + k })

/-- `file.read(data, nBytes, ..)`. What it does not reach in the buffer stays
there. -/
def read (f : SdFile) (data : Bytes) (nBytes moves : ℕ) : Bool × Bytes × SdFile :=
  let k := min moves nBytes
  (k == nBytes, f.contents.slice f.pos k ++ data.drop k, { f with pos := f.pos + k })

end SdFile

/-- `for(int i=0; i<5; i++)` with `if (rc) break;`. The state a failed turn
leaves is what the next one begins with. -/
def retries {σ : Type*} (attempt : ℕ → σ → Bool × σ) : List ℕ → σ → Bool × σ
  | [], s => (false, s)
  | i :: is, s =>
    match attempt i s with
    | (true, s') => (true, s')
    | (false, s') => retries attempt is s'

/-- `write` of a backend that asks once for each turn of `turns`. It seeks once,
in front of the loop. -/
def sdWrite (turns : List ℕ) (c : SdCalls) (blockNr : UInt64) (nBlocks : UInt32) (data : Bytes)
    (f : SdFile) : Bool × SdFile :=
  if c.seeks then
    retries (fun i f => f.write data (sdBytes nBlocks) (c.moves i)) turns
      (f.lseek (sdOffset blockNr))
  else (false, f)

/-- `read` of a backend that asks once for each turn of `turns`. It seeks once,
in front of the loop, and fills the same buffer each time. -/
def sdRead (turns : List ℕ) (c : SdCalls) (blockNr : UInt64) (nBlocks : UInt32) (data : Bytes)
    (f : SdFile) : Bool × Bytes × SdFile :=
  if c.seeks then
    retries (fun i s => s.2.read s.1 (sdBytes nBlocks) (c.moves i)) turns
      (data, f.lseek (sdOffset blockNr))
  else (false, data, f)

/-! ### The backends -/

/-- "5 is arbitrarily chosen". -/
def rp2040wTurns : List ℕ := List.range 5

/-- `backend_sdcard_rp2040w::write`. -/
def SdcardRp2040w.write : SdCalls → UInt64 → UInt32 → Bytes → SdFile → Bool × SdFile :=
  sdWrite rp2040wTurns

/-- `backend_sdcard_rp2040w::read`. -/
def SdcardRp2040w.read : SdCalls → UInt64 → UInt32 → Bytes → SdFile → Bool × Bytes × SdFile :=
  sdRead rp2040wTurns

/-- `backend_sdcard::write`. -/
def Sdcard.write : SdCalls → UInt64 → UInt32 → Bytes → SdFile → Bool × SdFile := sdWrite [0]

/-- `backend_sdcard::read`. -/
def Sdcard.read : SdCalls → UInt64 → UInt32 → Bytes → SdFile → Bool × Bytes × SdFile := sdRead [0]

/-- `backend_sdcard_teensy41::write`. -/
def SdcardTeensy41.write : SdCalls → UInt64 → UInt32 → Bytes → SdFile → Bool × SdFile :=
  sdWrite [0]

/-- `backend_sdcard_teensy41::read`. -/
def SdcardTeensy41.read : SdCalls → UInt64 → UInt32 → Bytes → SdFile → Bool × Bytes × SdFile :=
  sdRead [0]

end IscsiTarget
