import IscsiTarget.Lib.Buffer
import IscsiTarget.Model.Receive
import IscsiTarget.Model.Reply

/-!
# Frames

What is sent is built at three places: `get_helper` lays out the header and the data segment of
most PDUs, with their digests; `gen_data_in_pdu` lays out a Data-In with room for a payload that
`push_response` fills in; and a reject is a structure of its own that is sent as it is. Each of
them writes into a buffer it has allocated, and gets no further when a write leaves it.
-/

namespace IscsiTarget

open Buffer Reception

/-- A word as it stands in the memory of a little-endian host. -/
def nativeBytes (v : UInt32) : Bytes :=
  [byteAt v.toNat 0, byteAt v.toNat 8, byteAt v.toNat 16, byteAt v.toNat 24]

/-- `new uint8_t[n]`, which is not initialised: `memory` is what was there
before. -/
def newBytes (memory : ℕ → UInt8) (n : ℕ) : Bytes := (List.range n).map memory

/-- The header digest behind the header, if there is one. -/
def putHeaderDigest (out : Bytes) : Option UInt32 → Option Bytes
  | some crc32 => blit out 48 (nativeBytes crc32)
  | none => some out

/-- The data segment of `get_helper`: the padding is set to zero first, four
bytes from the end of the data segment. The digest is that of the padded data. -/
def putData (out : Bytes) (outSize dataOffset : ℕ) (data : Bytes) (dataDigest : Bool) :
    Option Bytes :=
  if data.length > 0 then
    if dataDigest then do
      let out ← blit out (outSize - (4 + 4)) (zeros 4)
      let out ← blit out dataOffset data
      let crc32 := (crc32c ((out.drop dataOffset).take (padded data.length)) none).1
      blit out (dataOffset + padded data.length) (nativeBytes crc32)
    else do
      let out ← blit out (outSize - 4) (zeros 4)
      blit out dataOffset data
  else some out

/-- `get_helper`: the buffer is allocated, and header, header digest and data
segment are copied into it. `none` is a copy that goes over the end. -/
def getHelper (ses : Session) (memory : ℕ → UInt8) (header : Header) (data : Bytes)
    (allowDigest : Bool) : Option Bytes := do
  let headerDigest :=
    if ses.getHeaderDigest && allowDigest then some (crc32c header.toList none).1 else none
  let dataDigest := ses.getDataDigest && allowDigest
  let dataOffset := 48 + if headerDigest.isSome then 4 else 0
  let outSize := dataOffset + padded data.length + if dataDigest ∧ data.length > 0 then 4 else 0
  let out ← blit (newBytes memory outSize) 0 header.toList
  let out ← putHeaderDigest out headerDigest
  putData out outSize dataOffset data dataDigest

/-! ### Data-In -/

/-- `__pdu_data_in__`, as it lies in memory. Tags and LUN are copied as they
came, and numbers are written with the most significant byte first. -/
def DataInPdu.header (p : DataInPdu) : Header :=
  Header.ofBytes <|
    [0x25, (if p.final then 128 else 0) ||| (if p.statusBit then 1 else 0) |||
        (if p.underflow then 2 else 0) ||| (if p.overflow then 4 else 0), 0, 0] ++
    [0, byteAt p.dataSegmentLength 16, byteAt p.dataSegmentLength 8,
      byteAt p.dataSegmentLength 0] ++
    p.lun ++ nativeBytes p.itasktag ++ zeros 4 ++ be32 p.numbers.statSN.toNat ++
    be32 p.numbers.expCmdSN.toNat ++ be32 p.numbers.maxCmdSN.toNat ++ be32 p.dataSN.toNat ++
    be32 p.bufferoff.toNat ++ be32 p.residualCt.toNat

/-- The buffer of `gen_data_in_pdu` for a header and `n` bytes of data, and
where the data go. It is padded as a whole, which comes to the same since a
header has 48 bytes. -/
def genDataInBuffer (ses : Session) (header : Header) (n : ℕ) : Option (Bytes × ℕ) := do
  let headerDigest := if ses.getHeaderDigest then some (crc32c header.toList none).1 else none
  let outSize := padded (48 + n) + (if ses.getHeaderDigest then 4 else 0) +
    if ses.getDataDigest then 4 else 0
  let out ← blit (zeros outSize) 0 header.toList
  let out ← putHeaderDigest out headerDigest
  some (out, 48 + if ses.getHeaderDigest then 4 else 0)

/-- The data digest of `push_response`, right behind the payload. The padding is
not skipped, and the digest does not cover it. -/
def putDataDigest (out : Bytes) (dataPointer : ℕ) (payload : Bytes) (dataDigest : Bool) :
    Option Bytes :=
  if dataDigest then
    blit out (dataPointer + payload.length) (nativeBytes (crc32c payload none).1)
  else some out

/-- A Data-In as `push_response` sends it, with the payload read into the
buffer. -/
def DataInPdu.frame (ses : Session) (p : DataInPdu) : Option Bytes := do
  let (out, dataPointer) ← genDataInBuffer ses p.header p.payload.length
  let out ← blit out dataPointer p.payload
  putDataDigest out dataPointer p.payload ses.getDataDigest

/-! ### Reject -/

/-- `__reject__`, up to `problem_pdu`. -/
def RejectPdu.header (p : RejectPdu) : Header :=
  Header.ofBytes ([0x3f, 128, p.reason, 0, 0, 0, 0, 48] ++ zeros 40)

/-- A reject as it is sent. -/
def RejectPdu.frame (p : RejectPdu) : Bytes := p.header.toList ++ p.problemPdu.toList

end IscsiTarget
