import Mathlib

/-!
# Bytes, words and the basic header segment

The 48 bytes every iSCSI PDU starts with (`pdu_bytes`) and the fields the code
reads out of them. A field the code passes through `my_NTOHL` is read most
significant byte first (`getUint32`). A tag is only ever compared and copied
back, so the code loads it as it stands in memory; that is `nativeUint32`, the
load of a little-endian host.
-/

namespace IscsiTarget

/-- A byte buffer with its length. -/
abbrev Bytes := List UInt8

/-- `get_uint32_t`, and `my_NTOHL` of a loaded field: most significant byte
first. -/
def getUint32 (p0 p1 p2 p3 : UInt8) : UInt32 :=
  p0.toUInt32 <<< 24 ||| p1.toUInt32 <<< 16 ||| p2.toUInt32 <<< 8 ||| p3.toUInt32

/-- `get_uint64_t`. -/
def getUint64 (p0 p1 p2 p3 p4 p5 p6 p7 : UInt8) : UInt64 :=
  p0.toUInt64 <<< 56 ||| p1.toUInt64 <<< 48 ||| p2.toUInt64 <<< 40 ||| p3.toUInt64 <<< 32 |||
    p4.toUInt64 <<< 24 ||| p5.toUInt64 <<< 16 ||| p6.toUInt64 <<< 8 ||| p7.toUInt64

/-- A plain 32-bit load on a little-endian host. -/
def nativeUint32 (p0 p1 p2 p3 : UInt8) : UInt32 := getUint32 p3 p2 p1 p0

/-- `get_bits`. -/
def getBits (b : UInt8) (bitNr length : ℕ) : UInt8 :=
  UInt8.ofNat (b.toNat / 2 ^ bitNr % 2 ^ length)

/-! ### Opcodes of the initiator's PDUs -/

/-- `iscsi_bhs_opcode`, as far as `receive_pdu` tells the values apart. All
others have no PDU class of their own, and are answered with a reject. -/
inductive BhsOpcode
  | nopOut
  | scsiCmd
  | scsiTaskman
  | loginReq
  | textReq
  | scsiDataOut
  | logoutReq
  | r2t
  | other
  deriving DecidableEq, Repr

/-- The enumerator of a six-bit opcode. -/
def BhsOpcode.ofByte (b : UInt8) : BhsOpcode :=
  match b.toNat with
  | 0x00 => .nopOut
  | 0x01 => .scsiCmd
  | 0x02 => .scsiTaskman
  | 0x03 => .loginReq
  | 0x04 => .textReq
  | 0x05 => .scsiDataOut
  | 0x06 => .logoutReq
  | 0x31 => .r2t
  | _ => .other

/-! ### The header -/

/-- The basic header segment. -/
abbrev Header := Vector UInt8 48

-- The bounds of bytes that more than one module indexes, for their definitions.

theorem Header.lt0 : 0 < 48 := by decide

theorem Header.lt20 : 20 < 48 := by decide

theorem Header.lt27 : 27 < 48 := by decide

theorem Header.lt31 : 31 < 48 := by decide

/-- A command descriptor block, as `get_CDB` hands it to `scsi::send`. -/
abbrev Cdb := Vector UInt8 16

theorem Cdb.lt0 : 0 < 16 := by decide

theorem Cdb.lt1 : 1 < 16 := by decide

theorem Cdb.lt2 : 2 < 16 := by decide

theorem Cdb.lt3 : 3 < 16 := by decide

theorem Cdb.lt4 : 4 < 16 := by decide

theorem Cdb.lt5 : 5 < 16 := by decide

theorem Cdb.lt6 : 6 < 16 := by decide

theorem Cdb.lt7 : 7 < 16 := by decide

theorem Cdb.lt8 : 8 < 16 := by decide

theorem Cdb.lt9 : 9 < 16 := by decide

theorem Cdb.lt10 : 10 < 16 := by decide

theorem Cdb.lt11 : 11 < 16 := by decide

theorem Cdb.lt12 : 12 < 16 := by decide

theorem Cdb.lt13 : 13 < 16 := by decide

namespace Header

variable (h : Header)

def getOpcode : BhsOpcode := BhsOpcode.ofByte (getBits (getElem h 0 lt0) 0 6)

/-- `get_ahs_length`, in bytes. -/
def getAhsLength : ℕ := h[4].toNat * 4

/-- `get_data_length`: the 24-bit DataSegmentLength. -/
def getDataLength : ℕ := h[5].toNat * 65536 + h[6].toNat * 256 + h[7].toNat

/-- `get_LUN`: the eight bytes of the LUN field. -/
def getLun : Bytes := [h[8], h[9], h[10], h[11], h[12], h[13], h[14], h[15]]

/-- `get_LUN_nr`: the LUN field loaded as one 64-bit word. -/
def getLunNr : UInt64 := getUint64 h[15] h[14] h[13] h[12] h[11] h[10] h[9] h[8]

def getItasktag : UInt32 := nativeUint32 h[16] h[17] h[18] h[19]

/-- `get_ExpDatLen` of a SCSI Command. -/
def getExpDatLen : UInt32 := getUint32 h[20] h[21] h[22] h[23]

/-- `get_TTT` of a Data-Out, NOP-Out or Text Request. -/
def getTtt : UInt32 := nativeUint32 h[20] h[21] h[22] h[23]

def getCmdSN : UInt32 := getUint32 h[24] h[25] h[26] h[27]

def getExpStatSN : UInt32 := getUint32 h[28] h[29] h[30] h[31]

/-- `get_BufferOffset` of a Data-Out. -/
def getBufferOffset : UInt32 := getUint32 h[40] h[41] h[42] h[43]

/-- `get_F` of a Data-Out. -/
def getF : Bool := h[1] &&& 128 != 0

/-- `get_task_func` of a Task Management Request. -/
def getTaskFunc : UInt8 := getBits h[1] 0 7

/-- `get_CSG` of a Login Request. -/
def getCsg : UInt8 := getBits h[1] 2 2

/-- `get_NSG` of a Login Request. -/
def getNsg : UInt8 := getBits h[1] 0 2

/-- `get_versionmin` of a Login Request. -/
def getVersionmin : UInt8 := h[3]

/-- `get_ISID` of a Login Request. -/
def getIsid : Bytes := [h[8], h[9], h[10], h[11], h[12], h[13]]

/-- `get_CDB`. -/
def getCdb : Cdb := Vector.ofFn fun i => h[32 + i.val]

theorem getDataLength_lt : h.getDataLength < 2 ^ 24 := by
  have h5 := h[5].toNat_lt
  have h6 := h[6].toNat_lt
  have h7 := h[7].toNat_lt
  unfold getDataLength
  omega

end Header

end IscsiTarget
