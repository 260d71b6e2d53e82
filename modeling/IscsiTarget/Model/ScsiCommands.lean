import IscsiTarget.Model.Scsi
import IscsiTarget.Model.Text

/-!
# Class `scsi`: the commands

One function for each SCSI command, and `send`, which picks one by the opcode.
A handler returns a `scsi_response`: what kind of answer it is, the sense data,
the data to return (inline, or a place on the medium to stream from) and the
R2T session to open.

Reads past the end of the data segment, which C++ leaves undefined, end in
`Fault.outOfBounds`. The one loop whose number of turns depends on the backend
(WRITE SAME up to the end of the device) takes its number of turns as `fuel`.
-/

namespace IscsiTarget

/-! ### Numbers in buffers -/

/-- The assignment `p[i] = v >> shift` of a number to a byte. -/
def byteAt (v shift : ℕ) : UInt8 := UInt8.ofNat (v / 2 ^ shift)

def be16 (v : ℕ) : Bytes := [byteAt v 8, byteAt v 0]

def be32 (v : ℕ) : Bytes := [byteAt v 24, byteAt v 16, byteAt v 8, byteAt v 0]

def be64 (v : ℕ) : Bytes :=
  [byteAt v 56, byteAt v 48, byteAt v 40, byteAt v 32] ++ be32 v

/-- `new uint8_t[n]()`. -/
def zeros (n : ℕ) : Bytes := List.replicate n 0

/-- Assignments to consecutive bytes of a buffer, or a `memcpy` into it. -/
def poke (off : ℕ) (bytes buf : Bytes) : Bytes :=
  buf.take off ++ bytes ++ buf.drop (off + bytes.length)

theorem length_poke {off : ℕ} {bytes buf : Bytes} (h : off + bytes.length ≤ buf.length) :
    (poke off bytes buf).length = buf.length := by
  simp [poke]
  omega

/-- `encode_lun`. The first byte is the format, which depends on the number;
large numbers are copied in the order of the machine. -/
def encodeLun (lunNr : UInt64) : Bytes :=
  -- one byte, then two, each behind its format
  if lunNr < 256 then [0, byteAt lunNr.toNat 0, 0, 0, 0, 0, 0, 0]
  else if lunNr < 0x4000 then [1, byteAt lunNr.toNat 8, byteAt lunNr.toNat 0, 0, 0, 0, 0, 0]
  -- `memcpy` of the number, the least significant byte first
  else (be64 lunNr.toNat).reverse

/-! ### Responses -/

/-- `iscsi_reacion_t`: what `get_response` is to make of the answer of
`scsi::send`. -/
inductive Reaction
  /-- Only a sense and/or data PDU. -/
  | asIs
  /-- Only a possibly empty sense. -/
  | emptySense
  | r2t
  deriving DecidableEq, Repr

/-- `data_descriptor`. -/
structure DataDescriptor where
  lba : UInt64 := 0
  nSectors : UInt32 := 0
  deriving DecidableEq, Repr

/-- `scsi_response`. `inlineData` is `io.what.data` when `io.is_inline` is set;
when it is not, `location` says where on the medium the data is. -/
structure ScsiResponse where
  type : Reaction := .asIs
  senseData : Bytes := []
  amountOfDataExpected : Option UInt64 := none
  inlineData : Option Bytes := none
  location : DataDescriptor := {}
  r2t : R2tSession := {}
  deriving DecidableEq, Repr

/-- The amount of data of `n` blocks, a `uint64_t` product. -/
def Target.nBytes {β : Type} (T : Target β) (n : UInt32) : ℕ := n.toNat * T.blockSize

/-! ### Addresses in a CDB -/

/-- `cdb_size_t`. -/
inductive CdbSize
  | cs6
  | cs10
  | cs12
  | cs16
  deriving DecidableEq, Repr

/-- `get_lba_len`: where each form has its address and its count. The 6-byte
form has five bits of its address in byte 1, and a count of zero means 256
blocks there and nowhere else. -/
def getLbaLen (cdb : Cdb) : CdbSize → UInt64 × UInt32
  | .cs6 =>
    ((getElem cdb 1 Cdb.lt1 &&& 31).toUInt64 <<< 16 |||
        (getElem cdb 2 Cdb.lt2).toUInt64 <<< 8 ||| (getElem cdb 3 Cdb.lt3).toUInt64,
      if getElem cdb 4 Cdb.lt4 = 0 then 256 else (getElem cdb 4 Cdb.lt4).toUInt32)
  | .cs10 =>
    ((getUint32 (getElem cdb 2 Cdb.lt2) (getElem cdb 3 Cdb.lt3)
        (getElem cdb 4 Cdb.lt4) (getElem cdb 5 Cdb.lt5)).toUInt64,
      (getElem cdb 7 Cdb.lt7).toUInt32 <<< 8 ||| (getElem cdb 8 Cdb.lt8).toUInt32)
  | .cs12 =>
    ((getUint32 (getElem cdb 2 Cdb.lt2) (getElem cdb 3 Cdb.lt3)
        (getElem cdb 4 Cdb.lt4) (getElem cdb 5 Cdb.lt5)).toUInt64,
      getUint32 (getElem cdb 6 Cdb.lt6) (getElem cdb 7 Cdb.lt7)
        (getElem cdb 8 Cdb.lt8) (getElem cdb 9 Cdb.lt9))
  | .cs16 =>
    (getUint64 (getElem cdb 2 Cdb.lt2) (getElem cdb 3 Cdb.lt3) (getElem cdb 4 Cdb.lt4)
        (getElem cdb 5 Cdb.lt5) (getElem cdb 6 Cdb.lt6) (getElem cdb 7 Cdb.lt7)
        (getElem cdb 8 Cdb.lt8) (getElem cdb 9 Cdb.lt9),
      getUint32 (getElem cdb 10 Cdb.lt10) (getElem cdb 11 Cdb.lt11)
        (getElem cdb 12 Cdb.lt12) (getElem cdb 13 Cdb.lt13))

/-- The size of the CDB of an opcode whose address `get_lba_len` reads. COMPARE
AND WRITE and UNMAP have places of their own. -/
def ScsiOpcode.cdbSize : ScsiOpcode → Option CdbSize
  | .write6 | .read6 => some .cs6
  | .write10 | .writeVerify10 | .read10 | .prefetch10 | .writeSame10 => some .cs10
  | .write12 | .read12 => some .cs12
  | .write16 | .read16 | .prefetch16 | .writeSame16 => some .cs16
  | _ => none

/-- The range a command addresses. A handler that meets an opcode that is not
its own leaves both variables at zero. -/
def Cdb.range (cdb : Cdb) : UInt64 × UInt32 :=
  match cdb.opcode.cdbSize with
  | some size => getLbaLen cdb size
  | none => (0, 0)

namespace Scsi

variable {β : Type} (T : Target β) (s : Scsi β)

/-! ### Commands that report on the device -/

/-- `test_unit_ready`. -/
def testUnitReady : ScsiResponse := { type := .emptySense }

/-- `mode_sense_6`. -/
def modeSense6 : ScsiResponse :=
  if s.lockingStatus T = .lockedOther then { senseData := errorReservationConflict1 }
  else { inlineData := some (poke 0 [3, 0, 16] (zeros 4)) }

/-- The standard INQUIRY data: 68 bytes, with eight bytes of the serial number
behind the revision, as far as it has them. -/
def inquiryStandard (deviceType : UInt8) : Bytes :=
  zeros 68
    |> poke 0 [deviceType, 0, 5, 2, 63, 0, 0, 0]
    |> poke 8 (ascii "vnHeusdn")
    |> poke 16 (ascii "iESP")
    |> poke 32 (ascii "2.3")
    |> poke 36 (ascii "00000000")
    |> poke 36 (T.serial.take 8)
    |> poke 58 [0x06, 0x00, 0x09, 0x60, 0x01, 0xfb, 0x01, 0x20, 0x04, 0xc0]

/-- The vital product page `page`, when there is one. The limits are those the
commands check, and they depend on what the code is compiled for. -/
def inquiryPage (deviceType page : UInt8) : Option Bytes :=
  -- the supported pages; 0xb2 is answered without being listed
  if page = 0x00 then
    some (zeros 9 |> poke 0 [deviceType, page, 0, 5, 0x00, 0x80, 0x83, 0xb0, 0xb1])
  else if page = 0x80 then
    some (zeros (4 + T.serial.length)
      |> poke 0 [deviceType, page]
      |> poke 3 [UInt8.ofNat T.serial.length]
      |> poke 4 T.serial)
  else if page = 0x83 then
    some (zeros (8 + T.serial.length)
      |> poke 0 [deviceType, page]
      |> poke 3 [UInt8.ofNat (4 + T.serial.length), 0x52, 128]
      |> poke 7 [UInt8.ofNat T.serial.length]
      |> poke 8 T.serial)
  else if page = 0xb0 then
    some (zeros 64
      |> poke 0 [deviceType, page, 0, 0x3c, 0, 1, 0, 0]
      |> poke 22 [if T.build = .esp32 then 1 else 32, 0]
      |> poke 27 [8]
      |> poke 31 [8]
      |> poke 40 (be32 T.build.maxWsLen.toNat))
  else if page = 0xb1 then
    some (zeros 64 |> poke 0 [deviceType, page, 0, 60, 0x1c, 0x20] |> poke 8 [0x02])
  else if page = 0xb2 then
    some (zeros 64 |> poke 0 [deviceType, page, 0, 60] |> poke 5 [128 ||| 64 ||| 32 ||| 2])
  else none

/-- What INQUIRY returns before it is cut to the allocation length. LUN 0 is a
controller, and any other one is a disk. -/
def inquiryData (lun : UInt64) (cdb : Cdb) : Option Bytes :=
  let deviceType : UInt8 := if lun = 0 then 0x0c else 0x00
  if getElem cdb 1 Cdb.lt1 &&& 1 = 0 then
    if getElem cdb 2 Cdb.lt2 ≠ 0 then none else some (inquiryStandard T deviceType)
  else inquiryPage T deviceType (getElem cdb 2 Cdb.lt2)

/-- The allocation length of an INQUIRY. -/
def inquiryAllocationLength (cdb : Cdb) : ℕ :=
  (getElem cdb 3 Cdb.lt3).toNat * 256 + (getElem cdb 4 Cdb.lt4).toNat

/-- `inquiry`. -/
def inquiry (lun : UInt64) (cdb : Cdb) : ScsiResponse :=
  match inquiryData T lun cdb with
  | some d => { inlineData := some (d.take (inquiryAllocationLength cdb)) }
  | none => { senseData := [0x72, 0x05, 0x24, 0x00, 0x00, 0x00, 0x00, 0x00] }

/-- `read_capacity_10`: the last address, in 32 bits whatever the size of the
device is, and the size of a block. -/
def readCapacity10 : ScsiResponse :=
  let deviceSize := s.getSizeInBlocks T - 1
  { inlineData := some (be32 deviceSize.toNat ++ be32 T.blockSize) }

/-- READ CAPACITY(16), a service action of `get_lba_status`: the last address,
the block size, and the flags for provisioning. -/
def readCapacity16 (allocationLength : UInt32) : ScsiResponse :=
  if allocationLength = 0 then { type := .emptySense }
  else
    let deviceSize := s.getSizeInBlocks T - 1
    let d := zeros 32
      |> poke 0 (be64 deviceSize.toNat)
      |> poke 8 (be32 T.blockSize)
      |> poke 12 [0x10]
      -- LBPME and LBPRZ
      |> poke 14 [128 ||| 64]
    { inlineData := some (d.take allocationLength.toNat) }

/-- `get_lba_status`. READ CAPACITY(16) has the same opcode and another service
action; GET LBA STATUS itself answers that the range it was asked about is
mapped. -/
def getLbaStatus (cdb : Cdb) : ScsiResponse :=
  let serviceAction := getElem cdb 1 Cdb.lt1 &&& 31
  if serviceAction = 0x10 then
    s.readCapacity16 T (getUint32 (getElem cdb 10 Cdb.lt10) (getElem cdb 11 Cdb.lt11)
      (getElem cdb 12 Cdb.lt12) (getElem cdb 13 Cdb.lt13))
  else if serviceAction = 0x12 then
    match s.validateLba T (getUint64 (getElem cdb 2 Cdb.lt2) (getElem cdb 3 Cdb.lt3)
        (getElem cdb 4 Cdb.lt4) (getElem cdb 5 Cdb.lt5) (getElem cdb 6 Cdb.lt6)
        (getElem cdb 7 Cdb.lt7) (getElem cdb 8 Cdb.lt8) (getElem cdb 9 Cdb.lt9)) with
    | some sense => { senseData := sense }
    | none =>
      { inlineData := some
          (zeros 24
            |> poke 0 [0, 0, 0, 21]
            |> poke 8 ((cdb.toList.drop 2).take 8)
            |> poke 16 ((cdb.toList.drop 10).take 4)) }
  else { senseData := errorNotImplemented }

/-- `report_luns`. -/
def reportLuns : ScsiResponse :=
  { inlineData := some (zeros 16 |> poke 3 [8] |> poke 8 (encodeLun 1)) }

/-- `scsi_a3_data`, in the order of the map: opcode, CDB usage data. The CDB
length the source lists besides is the length of the usage data throughout. -/
def scsiA3Data : List (UInt8 × Bytes) :=
  [(0x00, [0xff, 0x00, 0x00, 0x00, 0x00, 0x07]),
    (0x02, [0xff, 0x01, 0x00, 0x00, 0xff, 0x07]),
    (0x08, [0xff, 0x1f, 0xff, 0xff, 0xff, 0x07]),
    (0x0a, [0xff, 0x1f, 0xff, 0xff, 0xff, 0x07]),
    (0x12, [0xff, 0x01, 0xff, 0xff, 0xff, 0x07])] ++
  (if T.build.threads then
    [(0x16, [0xff, 0x00, 0x00, 0x00, 0x00, 0x07]),
      (0x17, [0xff, 0x00, 0x00, 0x00, 0x00, 0x07])]
  else []) ++
  [(0x1a, [0xff, 0x08, 0xff, 0xff, 0xff, 0x07]),
    (0x25, [0xff, 0x00, 0x00, 0x00, 0x00, 0x00, 0x00, 0x00, 0x00, 0x07]),
    (0x28, [0xff, 0xfe, 0xff, 0xff, 0xff, 0xff, 0x00, 0xff, 0xff, 0x07]),
    (0x2a, [0xff, 0xfa, 0xff, 0xff, 0xff, 0xff, 0x00, 0xff, 0xff, 0x07]),
    (0x2e, [0xff, 0xf2, 0xff, 0xff, 0xff, 0xff, 0x00, 0xff, 0xff, 0x07]),
    (0x35, [0xff, 0x06, 0xff, 0xff, 0xff, 0xff, 0x00, 0xff, 0xff, 0x07]),
    (0x41, [0xff, 0x08, 0xff, 0xff, 0xff, 0xff, 0x00, 0xff, 0xff, 0xff]),
    (0x42, [0xff, 0x01, 0x00, 0x00, 0x00, 0x00, 0x00, 0xff, 0xff, 0x07]),
    (0x88, [0xff, 0xfe, 0xff, 0xff, 0xff, 0xff, 0xff, 0xff, 0xff, 0xff, 0xff, 0xff, 0xff, 0xff,
      0x00, 0x07]),
    (0x89, [0xff, 0xfa, 0xff, 0xff, 0xff, 0xff, 0xff, 0xff, 0xff, 0xff, 0x00, 0x00, 0x00, 0xff,
      0x00, 0x07]),
    (0x8a, [0x8a, 0xfa, 0xff, 0xff, 0xff, 0xff, 0xff, 0xff, 0xff, 0xff, 0xff, 0xff, 0xff, 0xff,
      0x00, 0x07]),
    (0x93, [0xff, 0x08, 0xff, 0xff, 0xff, 0xff, 0xff, 0xff, 0xff, 0xff, 0xff, 0xff, 0xff, 0xff,
      0x00, 0xff]),
    (0x9e, [0xff, 0x1f, 0xff, 0xff, 0xff, 0xff, 0xff, 0xff, 0xff, 0xff, 0xff, 0xff, 0xff, 0xff,
      0x00, 0x07]),
    (0xa0, [0xff, 0x00, 0xff, 0x00, 0x00, 0x00, 0xff, 0xff, 0xff, 0xff, 0x00, 0x07]),
    (0xa3, [0xff, 0x1f, 0x87, 0xff, 0xff, 0xff, 0xff, 0xff, 0xff, 0xff, 0x00, 0x07]),
    (0xa8, [0xff, 0xfe, 0xff, 0xff, 0xff, 0xff, 0xff, 0xff, 0xff, 0xff, 0x00, 0x07]),
    (0xaa, [0xff, 0xfa, 0xff, 0xff, 0xff, 0xff, 0xff, 0xff, 0xff, 0xff, 0x00, 0x07])]

/-- The data of REPORT SUPPORTED OPERATION CODES, when it is implemented: the
list of all commands, or the usage of one. -/
def supportedOperationCodes (cdb : Cdb) : Option Bytes :=
  let serviceAction := getElem cdb 1 Cdb.lt1 &&& 31
  let reportingOptions := getElem cdb 2 Cdb.lt2 &&& 7
  if serviceAction = 0x0c then
    if reportingOptions = 0 then
      let table := scsiA3Data T
      some (be32 (table.length * 8) ++
        table.flatMap fun e => [e.1, 0, 0, 0, 0, 0, 0, UInt8.ofNat e.2.length])
    else if reportingOptions = 1 then
      match (scsiA3Data T).lookup (getElem cdb 3 Cdb.lt3) with
      | some usage => some ([0, 0x03] ++ be16 usage.length ++ usage)
      | none => none
    else none
  else none

/-- `report_supported_operation_codes`. -/
def reportSupportedOperationCodes (cdb : Cdb) : ScsiResponse :=
  match supportedOperationCodes T cdb with
  | some d => { inlineData := some d }
  | none => { senseData := errorNotImplemented }

/-! ### Reading, and commands without data -/

/-- `read_`, for all four forms. It reads nothing: it checks the range and says
where on the medium the data is. -/
def read_ (cdb : Cdb) : ScsiResponse :=
  let (lba, transferLength) := cdb.range
  let response : ScsiResponse :=
    { amountOfDataExpected := some (UInt64.ofNat (T.nBytes transferLength)) }
  match s.validateRequest T lba transferLength (some cdb) with
  | some sense => { response with senseData := sense }
  | none =>
    if transferLength = 0 then { response with type := .emptySense }
    -- no data yet: `push_response` streams it from there
    else { response with location := { lba := lba, nSectors := transferLength } }

/-- `sync_cache`. -/
def syncCache : ScsiResponse × Scsi β := ({ type := .emptySense }, (s.sync T).2)

/-- `prefetch` checks its range, without the CDB and so without the protection
bits, and does nothing else. -/
def prefetch (cdb : Cdb) : ScsiResponse :=
  let (lba, transferLength) := cdb.range
  match s.validateRequest T lba transferLength none with
  | some sense => { senseData := sense }
  | none => { type := .emptySense }

/-- `reserve`. Without threads it is not implemented, and with them it is
answered with a conflict while another session has the device. -/
def reserve : ScsiResponse × Scsi β :=
  if T.build.threads then
    match s.reserveDevice T with
    | (.locked, s') => ({ type := .emptySense }, s')
    | (_, s') => ({ senseData := errorReservationConflict1 }, s')
  else ({ senseData := errorNotImplemented }, s)

/-- `release`. -/
def release : ScsiResponse × Scsi β :=
  if T.build.threads then ({ type := .emptySense }, (s.unlockDevice T).2)
  else ({ senseData := errorNotImplemented }, s)

/-! ### Writing -/

/-- `work_n_blocks`: the blocks of the immediate data that belong to the
command. -/
def workNBlocks (transferLength : UInt32) (data : Bytes) : UInt32 :=
  min transferLength (UInt32.ofNat (data.length / T.blockSize))

/-- The whole blocks of the immediate data. -/
def storeBlocks (lba : UInt64) (transferLength : UInt32) (data : Bytes) : RwResult × Scsi β :=
  if data.length / T.blockSize > 0 then s.write T lba (workNBlocks T transferLength data) data
  else (.ok, s)

/-- What is left of a block, merged into the block on the medium: a read of one
block, the bytes that are there on top of it, and a write of one block. -/
def storeFragment (lba : UInt64) (transferLength : UInt32) (data : Bytes) : RwResult × Scsi β :=
  let workBytes := T.nBytes (workNBlocks T transferLength data)
  match s.read T (lba + (workNBlocks T transferLength data).toUInt64) 1 with
  | (.ok tempBuffer, s') =>
    -- the block behind the blocks that have arrived, which is the one that was read unless there
    -- are more of them than the command is about
    s'.write T (lba + UInt64.ofNat (data.length / T.blockSize)) 1
      (data.drop workBytes ++ tempBuffer.drop (data.length - workBytes))
  | (.error rc, s') => (rc, s')

/-- The part of `write_verify` that stores immediate data: the whole blocks, and
then the block that is filled only in part. -/
def storeImmediate (lba : UInt64) (transferLength : UInt32) (data : Bytes) : RwResult × Scsi β :=
  let first := s.storeBlocks T lba transferLength data
  let fragmentSize := data.length - T.nBytes (workNBlocks T transferLength data)
  if first.1 = .ok ∧ fragmentSize > 0 ∧ fragmentSize < T.blockSize then
    first.2.storeFragment T lba transferLength data
  else first

/-- The R2T session of a WRITE whose immediate data makes up `receivedBlocks`
whole blocks. The part of a block that has come with them is not counted. -/
def r2tFor (lba : UInt64) (transferLength : UInt32) (fua : Bool) (receivedBlocks : ℕ) :
    R2tSession :=
  { bufferLba := lba
    fua := fua
    bytesLeft :=
      if receivedBlocks ≤ transferLength.toNat then
        UInt32.ofNat ((transferLength.toNat - receivedBlocks) * T.blockSize)
      else 0
    bytesDone := UInt32.ofNat (receivedBlocks * T.blockSize) }

/-- The bit `write_verify` takes for FUA: bit 3 of byte 1, in every form. -/
def fuaBit (cdb : Cdb) : Bool := getElem cdb 1 Cdb.lt1 &&& 8 != 0

/-- `write_verify`, for all forms of WRITE and the 10-byte WRITE AND VERIFY,
where nothing is verified. Immediate data is stored at once; with all of the
data there the command is done, and otherwise an R2T session is asked for. -/
def writeVerify (cdb : Cdb) (data : Bytes) : ScsiResponse × Scsi β :=
  let (lba, transferLength) := cdb.range
  let fua := fuaBit cdb
  let response : ScsiResponse :=
    { amountOfDataExpected := some (UInt64.ofNat (T.nBytes transferLength)) }
  match s.validateRequest T lba transferLength (some cdb) with
  | some sense => ({ response with senseData := sense }, s)
  | none =>
    if data ≠ [] then
      let expectedSize := T.build.sizeT (T.nBytes transferLength)
      match s.storeImmediate T lba transferLength data with
      | (.ok, s') =>
        -- all has come: the result of the sync is not looked at
        if data.length = expectedSize then
          -- R2T packets may come in
          ({ response with type := .emptySense }, if fua then (s'.sync T).2 else s')
        else
          ({ response with
            type := .r2t
            r2t := r2tFor T lba transferLength fua (data.length / T.blockSize) }, s')
      | (.failRw, s') => ({ response with senseData := errorWriteError }, s')
      | (.failLocked, s') => ({ response with senseData := errorReservationConflict1 }, s')
      | (_, s') => (response, s')
    else if transferLength ≠ 0 then
      ({ response with type := .r2t, r2t := r2tFor T lba transferLength fua 0 }, s)
    else ({ response with type := .emptySense }, s)

/-- `max_compare_and_write_block_count`. -/
def maxCompareAndWriteBlockCount : UInt32 := 1

/-- How much of the data segment a backend reads for `compare_and_write`, which
hands it the second half to write and the first half to compare with. A block
that cannot be read is compared with nothing, one that differs costs the first
half, and the second half is read when it gets as far as the write. -/
def comparedBytes (lba : UInt64) (blockCount : UInt32) (data : Bytes) : ℕ :=
  let half := T.nBytes blockCount
  let late := T.backend.failsLate s.disk lba blockCount (data.drop half) data
  match (T.backend.cmpwrite s.disk lba blockCount (data.drop half) data).1 with
  | .readError => if late then half else 0
  | .mismatch => half
  | .writeError => if late then half * 2 else half
  | .ok => half * 2

/-- `compare_and_write`. It forms the addresses of both halves without a look at
how long the segment is; what is read behind its end is read by the backend, and
only when no other session holds the device. -/
def compareAndWrite (cdb : Cdb) (data : Bytes) : Except Fault (ScsiResponse × Scsi β) :=
  let lba := getUint64 (getElem cdb 2 Cdb.lt2) (getElem cdb 3 Cdb.lt3) (getElem cdb 4 Cdb.lt4)
    (getElem cdb 5 Cdb.lt5) (getElem cdb 6 Cdb.lt6) (getElem cdb 7 Cdb.lt7)
    (getElem cdb 8 Cdb.lt8) (getElem cdb 9 Cdb.lt9)
  let blockCount := (getElem cdb 13 Cdb.lt13).toUInt32
  let response : ScsiResponse :=
    { amountOfDataExpected := some (UInt64.ofNat (T.nBytes blockCount * 2)) }
  match s.validateRequest T lba blockCount (some cdb) with
  | some sense => .ok ({ response with senseData := sense }, s)
  | none =>
    if blockCount > maxCompareAndWriteBlockCount then
      .ok ({ response with senseData := errorCompareAndWriteCount }, s)
    else if s.lockingStatus T ≠ .lockedOther ∧
        data.length < s.comparedBytes T lba blockCount data then
      .error .outOfBounds
    else
      match s.cmpwrite T lba blockCount (data.drop (T.nBytes blockCount)) data with
      | (.ok, s') => .ok ({ response with type := .emptySense }, s')
      | (.failLocked, s') => .ok ({ response with senseData := errorReservationConflict1 }, s')
      | (.failMismatch, s') => .ok ({ response with senseData := errorMiscompare }, s')
      | (.failRw, s') => .ok ({ response with senseData := errorWriteError }, s')
      | (.failGeneral, s') => .ok (response, s')

/-! ### UNMAP -/

/-- The variables of the loop of `unmap`. -/
structure UnmapState (β : Type) where
  rc : RwResult := .ok
  senseData : Bytes := []
  scsi : Scsi β

/-- One block descriptor. The second component tells whether the loop goes on,
which it does unless a trim has failed. -/
def unmapDescriptor (u : UnmapState β) (lba : UInt64) (transferLength : UInt32) :
    UnmapState β × Bool :=
  match u.scsi.validateRequest T lba transferLength none with
  -- a range that is refused is noted, and the loop goes on
  | some sense => ({ u with rc := .failGeneral, senseData := sense }, true)
  | none =>
    if transferLength > T.build.maxUnmapBlocks then
      ({ u with rc := .failGeneral, senseData := errorOutOfRange }, true)
    else if transferLength > 0 then
      -- the result of this descriptor replaces that of the ones before
      match u.scsi.trim T lba transferLength with
      | (rc, s') => ({ u with rc := rc, scsi := s' }, rc == .ok)
    else (u, true)

/-- The loop of `unmap` over the bytes behind the header. It stops at the end of
the list, or where a descriptor says so. Every turn but the last takes a
descriptor off the list, so its length bounds their number. -/
def unmapLoop : ℕ → UnmapState β → Bytes → Except Fault (UnmapState β)
  | _, u, [] => .ok u
  | turns + 1, u, d0 :: d1 :: d2 :: d3 :: d4 :: d5 :: d6 :: d7 :: n0 :: n1 :: n2 :: n3 :: rest =>
    -- four bytes of a descriptor are reserved
    match unmapDescriptor T u (getUint64 d0 d1 d2 d3 d4 d5 d6 d7) (getUint32 n0 n1 n2 n3) with
    | (u', true) => unmapLoop turns u' (rest.drop 4)
    | (u', false) => .ok u'
  -- the list ends inside a descriptor
  | _, _, _ => .error .outOfBounds

/-- `unmap`: the descriptors one after the other. Sense data of any of them is
the answer if the last result was not good; a trim that fails without any is a
reservation conflict or a write error. -/
def unmap (data : Bytes) : Except Fault (ScsiResponse × Scsi β) :=
  -- the header of eight bytes is skipped without a look
  match unmapLoop T data.length { scsi := s } (data.drop 8) with
  | .error f => .error f
  | .ok u =>
    .ok (if u.rc = .ok then { type := .emptySense, senseData := u.senseData }
      else if u.senseData ≠ [] then { senseData := u.senseData }
      else if u.rc = .failLocked then { senseData := errorReservationConflict1 }
      else { senseData := errorWriteError }, u.scsi)

/-! ### WRITE SAME -/

/-- One turn of the loops of `write_same`. -/
def writeSameBlock (isUnmap : Bool) (data : Bytes) (lba : UInt64) : RwResult × Scsi β :=
  if isUnmap then s.trim T lba 1 else s.write T lba 1 data

/-- The loop over a given number of blocks. It ends with the first one that
cannot be written or trimmed. -/
def writeSameBlocks (isUnmap : Bool) (data : Bytes) : ℕ → UInt64 → Scsi β → RwResult × Scsi β
  | 0, _, s => (.ok, s)
  | k + 1, lba, s =>
    match s.writeSameBlock T isUnmap data lba with
    | (.ok, s') => writeSameBlocks isUnmap data k (lba + 1) s'
    | (rc, s') => (rc, s')

/-- The loop up to the end of the device, block by block. It runs to the size
that the backend tells at each turn, so its number of turns is not known before. -/
def writeSameToEnd (isUnmap : Bool) (data : Bytes) :
    ℕ → UInt64 → Scsi β → Except Fault (RwResult × Scsi β)
  | 0, _, _ => .error .outOfFuel
  | fuel + 1, i, s =>
    if i < s.getSizeInBlocks T then
      match s.writeSameBlock T isUnmap data i with
      | (.ok, s') => writeSameToEnd isUnmap data fuel (i + 1) s'
      | (rc, s') => .ok (rc, s')
    else .ok (.ok, s)

/-- The end of `write_same` once the loop is through. -/
def writeSameDone (response : ScsiResponse) : RwResult × Scsi β → ScsiResponse × Scsi β
  | (.failRw, s) => ({ response with senseData := errorWriteError }, s)
  | (.failLocked, s) => ({ response with senseData := errorReservationConflict1 }, s)
  | (_, s) => ({ response with type := .emptySense }, s)

/-- `write_same`. With data of one block the blocks are written, or trimmed, one
by one. Without data it asks for some only when the count happens to be the size
of a block, and reports success otherwise. -/
def writeSame (fuel : ℕ) (cdb : Cdb) (data : Bytes) : Except Fault (ScsiResponse × Scsi β) :=
  let (lba, transferLength) := cdb.range
  let isUnmap := getElem cdb 1 Cdb.lt1 &&& 8 != 0
  let response : ScsiResponse :=
    { amountOfDataExpected := some (UInt64.ofNat (T.nBytes transferLength))
      r2t := { writeSameIsUnmap := isUnmap, isWriteSame := true } }
  match s.validateRequest T lba transferLength (some cdb) with
  | some sense => .ok ({ response with senseData := sense }, s)
  | none =>
    if data ≠ [] then
      -- no sense data, and nothing else either
      if data.length / T.blockSize ≠ 1 then .ok (response, s)
      else if transferLength = 0 then
        -- all blocks up to the end are meant
        if s.getSizeInBlocks T - lba > T.build.maxWsLen.toUInt64 then
          .ok ({ response with senseData := errorInvalidField }, s)
        else (writeSameToEnd T isUnmap data fuel lba s).map (writeSameDone response)
      else .ok (writeSameDone response
        (writeSameBlocks T isUnmap data transferLength.toNat lba s))
    -- a number of blocks, compared with the size of one
    else if transferLength.toNat = T.blockSize then .ok ({ response with type := .r2t }, s)
    else .ok ({ response with type := .emptySense }, s)

/-! ### The dispatcher -/

/-- `send`. Every opcode has its handler; the ones that are known by name but
not implemented, and all the others, are refused. -/
def send (fuel : ℕ) (lun : UInt64) (cdb : Cdb) (data : Bytes) :
    Except Fault (ScsiResponse × Scsi β) :=
  match cdb.opcode with
  | .testUnitReady => .ok (testUnitReady, s)
  | .modeSense6 => .ok (s.modeSense6 T, s)
  | .inquiry => .ok (inquiry T lun cdb, s)
  | .readCapacity10 => .ok (s.readCapacity10 T, s)
  | .getLbaStatus => .ok (s.getLbaStatus T cdb, s)
  | .write6 | .write10 | .writeVerify10 | .write12 | .write16 => .ok (s.writeVerify T cdb data)
  | .read16 | .read12 | .read10 | .read6 => .ok (s.read_ T cdb, s)
  | .syncCache10 => .ok (s.syncCache T)
  | .reportLuns => .ok (reportLuns, s)
  | .repSupOper => .ok (reportSupportedOperationCodes T cdb, s)
  | .compareAndWrite => s.compareAndWrite T cdb data
  | .prefetch10 | .prefetch16 => .ok (s.prefetch T cdb, s)
  | .reserve6 => .ok (s.reserve T)
  | .release6 => .ok (s.release T)
  | .unmap => s.unmap T data
  | .writeSame10 | .writeSame16 => s.writeSame T fuel cdb data
  | .requestSense | .seek | .other => .ok ({ senseData := errorNotImplemented }, s)

end Scsi

end IscsiTarget
