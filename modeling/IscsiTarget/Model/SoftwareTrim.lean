import IscsiTarget.Model.FileBackend
import IscsiTarget.Model.SdTransfer

/-!
# Trimming by writing zeros

Where there is nothing like `fallocate`, `trim` allocates a block and writes it to every
block of the range: `backend_file` outside Linux, and the three SD-card backends. It is one
loop in all four. What differs is the `write` it calls and how the block is allocated.
`new uint8_t[..]()` gives zeros, and `new uint8_t[..]` whatever is in memory there.
-/

namespace IscsiTarget

/-- `for(uint32_t i=0; i<n_blocks; i++)`, with `break` when a write fails. The
result is that of the last write. -/
def trimLoop {σ : Type*} (write : ℕ → UInt64 → UInt32 → Bytes → σ → Bool × σ) (blockNr : UInt64)
    (data : Bytes) : List ℕ → σ → Bool × σ
  | [], s => (true, s)
  | i :: is, s =>
    match write i (blockNr + UInt64.ofNat i) 1 data s with
    | (false, s') => (false, s')
    | (true, s') => trimLoop write blockNr data is s'

/-- `backend_file::write`: `pwrite`, or `lseek` and `::write` on MinGW. What has
been moved is in the file even when it is too little. -/
def BackendFile.write (p : FilePlatform) (c : SdCalls) (blockNr : UInt64) (nBlocks : UInt32)
    (data : Bytes) (file : Medium UInt8) : Bool × Medium UInt8 :=
  if c.seeks then
    let nBytes := nBlocks.toNat * p.blockSize
    let k := min (c.moves 0) nBytes
    (k == nBytes, file.store (p.offset blockNr) (data.take k))
  else (false, file)

/-- `backend_file::trim` where `linux` is not defined. -/
def BackendFile.trim (p : FilePlatform) (calls : ℕ → SdCalls) (blockNr : UInt64)
    (nBlocks : UInt32) (file : Medium UInt8) : Bool × Medium UInt8 :=
  let zero := List.replicate p.blockSize 0
  trimLoop (fun i => BackendFile.write p (calls i)) blockNr zero (List.range nBlocks.toNat) file

/-- `backend_sdcard::trim`. -/
def Sdcard.trim (calls : ℕ → SdCalls) (blockNr : UInt64) (nBlocks : UInt32) (f : SdFile) :
    Bool × SdFile :=
  let data := List.replicate sdBlockSize 0
  trimLoop (fun i => Sdcard.write (calls i)) blockNr data (List.range nBlocks.toNat) f

/-- `backend_sdcard_teensy41::trim`. -/
def SdcardTeensy41.trim (calls : ℕ → SdCalls) (blockNr : UInt64) (nBlocks : UInt32) (f : SdFile) :
    Bool × SdFile :=
  let data := List.replicate sdBlockSize 0
  trimLoop (fun i => SdcardTeensy41.write (calls i)) blockNr data (List.range nBlocks.toNat) f

/-- `backend_sdcard_rp2040w::trim`. The block is not initialised: `fresh` is
what the memory holds that `new` returns. -/
def SdcardRp2040w.trim (fresh : ℕ → UInt8) (calls : ℕ → SdCalls) (blockNr : UInt64)
    (nBlocks : UInt32) (f : SdFile) : Bool × SdFile :=
  let data := (List.range sdBlockSize).map fresh
  trimLoop (fun i => SdcardRp2040w.write (calls i)) blockNr data (List.range nBlocks.toNat) f

/-- A backend that trims by writing. `backend_file` is one of them everywhere
but on Linux. -/
inductive SoftwareTrim
  | file (p : FilePlatform) (notLinux : p.os ≠ .linux)
  | sdcard
  | sdcardTeensy41
  | sdcardRp2040w

namespace SoftwareTrim

/-- `get_block_size`. -/
def blockSize : SoftwareTrim → ℕ
  | file p _ => p.blockSize
  | _ => sdBlockSize

/-- `trim`. Write `i` ends as `calls i` says. -/
def trim (fresh : ℕ → UInt8) (calls : ℕ → SdCalls) (blockNr : UInt64) (nBlocks : UInt32) :
    SoftwareTrim → SdFile → Bool × SdFile
  | file p _, f =>
    let (rc, contents) := BackendFile.trim p calls blockNr nBlocks f.contents
    (rc, { f with contents })
  | sdcard, f => Sdcard.trim calls blockNr nBlocks f
  | sdcardTeensy41, f => SdcardTeensy41.trim calls blockNr nBlocks f
  | sdcardRp2040w, f => SdcardRp2040w.trim fresh calls blockNr nBlocks f

end SoftwareTrim

end IscsiTarget
