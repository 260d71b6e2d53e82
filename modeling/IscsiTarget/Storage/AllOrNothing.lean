import IscsiTarget.Storage.FileCmpwrite
import IscsiTarget.Storage.NbdCmpwrite
import IscsiTarget.Storage.SdCmpwrite

/-!
# COMPARE AND WRITE in five backends

The file backend does all or nothing. The NBD backend has 32 bits for the length of what it
writes, and the backends on SD cards write a block before they look at the next one:
`CmpwriteBackend.allOrNothing_iff` says for which buffers they do all or nothing still.
-/

namespace IscsiTarget

/-- The classes that implement `cmpwrite`, with what their code is compiled for. -/
inductive CmpwriteBackend
  | file (p : FilePlatform)
  | nbd (b : Build)
  | sdcard (b : Build)
  | teensy41
  | rp2040w

namespace CmpwriteBackend

/-- What a backend works on: the contents of a file, a device behind a
connection, or a file on an SD card. -/
def State : CmpwriteBackend → Type
  | .file _ => Medium UInt8
  | .nbd _ => NbdShared
  | .sdcard _ => SdFile
  | .teensy41 => SdFile
  | .rp2040w => SdFile

/-- What is stored. -/
def contents : (k : CmpwriteBackend) → k.State → Medium UInt8
  | .file _, m => m
  | .nbd _, s => NbdShared.contents s
  | .sdcard _, f => SdFile.contents f
  | .teensy41, f => SdFile.contents f
  | .rp2040w, f => SdFile.contents f

/-- No other call is going on: nothing is under way on the connection to the NBD
server. -/
def Idle : (k : CmpwriteBackend) → k.State → Prop
  | .nbd _, s => NbdShared.Calm s ∧ NbdShared.Paired s
  | _, _ => True

def blockSize : CmpwriteBackend → ℕ
  | .file p => p.blockSize
  | .nbd _ => nbdBlockSize
  | .sdcard _ => sdBlockSize
  | .teensy41 => sdBlockSize
  | .rp2040w => sdBlockSize

/-- No device is larger: an `off_t`, or a 64-bit offset. -/
def sizeLimit : CmpwriteBackend → ℕ
  | .file _ => 2 ^ 63
  | _ => 2 ^ 64

/-- How `cmpwrite` can end: with which result, and with what on the medium. The
proposition says whether the calls below it work, and when it is false any of
them may fail. -/
def Ends : (k : CmpwriteBackend) → UInt64 → UInt32 → Bytes → Bytes → k.State →
    Prop → CmpwriteResult → Medium UInt8 → Prop
  | .file p => p.CmpwriteEnds
  | .nbd b => NbdEnds b
  | .sdcard b => SdEnds (backendSdcard b)
  | .teensy41 => SdEnds backendSdcardTeensy41
  | .rp2040w => SdEnds backendSdcardRp2040w

/-- When `cmpwrite` does all or nothing. For an NBD server: if the range
matches, nothing is to be changed behind the bytes that are written, whose
number has 32 bits. For an SD card: nothing is to be changed in front of the
first block that does not match. -/
def Suits (k : CmpwriteBackend) (nBlocks : UInt32) (m : Medium UInt8) (off : ℕ)
    (dataWrite dataCompare : Bytes) : Prop :=
  match k with
  | .file _ => True
  | .nbd _ => m.slice off dataCompare.length = dataCompare →
      dataWrite.drop (NbdSection.nBytes nBlocks) = dataCompare.drop (NbdSection.nBytes nBlocks)
  | _ => KeepsBlocks m off sdBlockSize nBlocks.toNat dataWrite dataCompare

variable {blockNr : UInt64} {nBlocks : UInt32} {dataWrite dataCompare : Bytes}

/-- **`cmpwrite` does all or nothing** in exactly these cases: always over a
file; over NBD when nothing is to be changed behind the bytes whose number fits
in 32 bits; over an SD card, where a block is written before the next one is
looked at, when nothing is to be changed in front of a block that differs. The
calls below work, so it is the order of reading and writing alone that decides. -/
theorem allOrNothing_iff (k : CmpwriteBackend) (s : k.State) (h_idle : k.Idle s)
    (h_range : (blockNr.toNat + nBlocks.toNat) * k.blockSize < k.sizeLimit)
    (h_write : dataWrite.length = nBlocks.toNat * k.blockSize)
    (h_compare : dataCompare.length = nBlocks.toNat * k.blockSize) :
    AllOrNothing (k.Ends blockNr nBlocks dataWrite dataCompare s) (k.contents s)
        (blockNr.toNat * k.blockSize) dataWrite dataCompare ↔
      k.Suits nBlocks (k.contents s) (blockNr.toNat * k.blockSize) dataWrite dataCompare := by
  cases k with
  | file p =>
    exact iff_of_true (FilePlatform.file_allOrNothing h_range h_write h_compare) trivial
  | nbd b => exact nbd_allOrNothing_iff h_idle.1 h_idle.2 h_range h_write h_compare
  | sdcard b => exact sd_allOrNothing_iff _ h_range h_write h_compare
  | teensy41 => exact sd_allOrNothing_iff _ h_range h_write h_compare
  | rp2040w => exact sd_allOrNothing_iff _ h_range h_write h_compare

/-- Two blocks on an SD card full of zeros, compared with zeros: no block
differs, and both are written. -/
theorem allOrNothing_twoBlocks :
    AllOrNothing (rp2040w.Ends 3 2 (List.replicate 1024 1) (List.replicate 1024 0)
      { contents := fun _ => 0 }) (fun _ => 0) (3 * 512) (List.replicate 1024 1)
      (List.replicate 1024 0) := by
  refine (allOrNothing_iff rp2040w { contents := fun _ => 0 } trivial ?_ ?_ ?_).mpr ?_
  · decide
  · exact List.length_replicate
  · exact List.length_replicate
  · intro j hj h_first
    have h_same : MatchesAt (fun _ => 0) (3 * 512) 512 (List.replicate 1024 0) j := by
      have h_lt : j < 2 := hj
      unfold MatchesAt
      interval_cases j <;> decide +kernel
    exact absurd h_same h_first.2

/-- Two blocks of an SD card full of zeros, compared with a block of zeros and a
block of ones: the first block has been written when the second one does not
match. -/
theorem allOrNothing_fails :
    ¬ AllOrNothing ((sdcard .esp32).Ends 0 2 (List.replicate 1024 1)
      (List.replicate 512 0 ++ List.replicate 512 1) { contents := fun _ => 0 }) (fun _ => 0) 0
      (List.replicate 1024 1) (List.replicate 512 0 ++ List.replicate 512 1) := by
  intro h
  have h_keeps : KeepsBlocks (fun _ => 0) 0 512 2 (List.replicate 1024 1)
      (List.replicate 512 0 ++ List.replicate 512 1) := by
    refine (sd_allOrNothing_iff { contents := fun _ => 0 } ?_ ?_ ?_).mp h
    · decide
    · exact List.length_replicate
    · rw [List.length_append, List.length_replicate, List.length_replicate]
      rfl
  have h_first : FirstMismatch (fun _ => 0) 0 512
      (List.replicate 512 0 ++ List.replicate 512 1) 1 := by
    unfold FirstMismatch Matches MatchesAt
    decide +kernel
  have h_same : (List.replicate 1024 (1 : UInt8)).take (1 * 512) =
      (List.replicate 512 (0 : UInt8) ++ List.replicate 512 1).take (1 * 512) :=
    h_keeps 1 (by decide) h_first
  exact absurd h_same (by decide +kernel)

end CmpwriteBackend

end IscsiTarget
