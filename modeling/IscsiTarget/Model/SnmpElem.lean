import IscsiTarget.Lib.Buffer
import IscsiTarget.Model.Text

/-!
# The elements of an SNMP reply

`snmp_elem` and the classes derived from it. A constructor or a `get_payload` allocates a
buffer and fills it; every write goes through `Buffer.put` or `Buffer.blit`, so the
functions here are `none` exactly when one of their writes leaves its buffer. What a fresh
buffer holds is not defined in the source; here it is zeros, and no byte that was not
written is ever copied out of one.
-/

namespace IscsiTarget

open Buffer

/-- `new uint8_t[size]`. -/
def newBuffer (size : ℕ) : Bytes := List.replicate size 0

/-- `snmp_integer_type`: the kinds of number there are, which differ in their
type byte. -/
inductive SnmpIntegerType
  | counter32
  | integer
  | counter64
  | ticks
  deriving DecidableEq, Repr

/-- The byte an `snmp_integer` starts with. -/
def SnmpIntegerType.snmpType : SnmpIntegerType → UInt8
  | .integer => 0x02
  | .counter32 => 0x41
  | .counter64 => 0x46
  | .ticks => 0x43

/-- `snmp_elem`. `len` is the member of the base class, in eight bits as there;
the value of an OID is the buffer its constructor filled. -/
inductive SnmpElem
  | integer (type : SnmpIntegerType) (v : UInt64) (len : UInt8)
  | sequence (elems : List SnmpElem)
  | null
  | octetString (v : Bytes) (len : UInt8)
  | oid (v : Bytes) (len : UInt8)
  | pdu (type : UInt8) (elems : List SnmpElem)
  deriving Repr

/-- What `get_payload` returns: the buffer and the size that goes with it. -/
structure SnmpPayload where
  first : Bytes
  second : UInt8
  deriving DecidableEq, Repr

/-! ### The constructors -/

/-- `snmp_integer::snmp_integer`. -/
def snmpInteger (type : SnmpIntegerType) (v : UInt64) : SnmpElem :=
  if v ≤ 0xffffffff then .integer type v (4 + 2) else .integer type v (8 + 2)

/-- `snmp_octet_string::snmp_octet_string`. -/
def snmpOctetString (v : Bytes) : SnmpElem := .octetString v (UInt8.ofNat (v.length + 2))

/-- The first inner loop of `snmp_oid::snmp_oid`: the base 128 digits of `v`
into `temp`, least significant first. -/
def oidPutLoop (temp : Bytes) (tempO v : ℕ) : Option (Bytes × ℕ) :=
  if h : v = 0 then some (temp, tempO)
  else do
    let temp ← put temp tempO (UInt8.ofNat (v % 128))
    oidPutLoop temp (tempO + 1) (v / 128)
termination_by v
decreasing_by omega

/-- One number of an OID into `temp`, the lowest digit first. Zero has no digit
in the loop, and is put there by itself. -/
def oidPut (temp : Bytes) (v : ℕ) : Option (Bytes × ℕ) :=
  if v = 0 then do
    let temp ← put temp 0 0
    some (temp, 1)
  else oidPutLoop temp 0 v

/-- The second inner loop: the digits from `temp` to the buffer, the last one
put first. All but the last byte have the continuation bit. -/
def oidFlushLoop (temp : Bytes) : ℕ → Bytes → ℕ → Option (Bytes × ℕ)
  | 0, v, p => some (v, p)
  | tempO + 1, v, p => do
    let v ← put v p (temp.getD tempO 0 ||| if tempO = 0 then 0 else 128)
    oidFlushLoop temp tempO v (p + 1)

/-- The conversion of a `long long` to `uint64_t`. -/
def longToUint64 (v : ℤ) : ℕ := (v % 2 ^ 64).toNat

/-- The outer loop of `snmp_oid::snmp_oid`. `p` is how far the buffer `v` is
filled. -/
def oidLoop (work : Bytes) (temp v : Bytes) (p : ℕ) : Option (Bytes × ℕ) :=
  if work = [] then some (v, p)
  else do
    let (temp, tempO) ← oidPut temp (longToUint64 (atoll work))
    let (v, p) ← oidFlushLoop temp tempO v p
    match h : findChar 46 work with
    | none => some (v, p)
    | some dot => oidLoop (work.drop (dot + 1)) temp v p
termination_by work.length
decreasing_by
  have h_lt := (List.findIdx?_eq_some_iff_findIdx_eq.mp h).1
  simp only [List.length_drop]
  omega

/-- `snmp_oid::snmp_oid`. The buffer has the size of the text, and the length is
kept in eight bits. -/
def snmpOid (oid : Bytes) : Option SnmpElem := do
  let v := newBuffer oid.length
  let (v, p, work) ←
    if oid.take 4 = ascii "1.3." then do
      let v ← put v 0 43
      some (v, 1, oid.drop 4)
    else some (v, 0, oid)
  let (v, p) ← oidLoop work (newBuffer 10) v p
  some (.oid v (UInt8.ofNat (p + 2)))

/-! ### `get_payload` -/

/-- The loop of `snmp_integer::get_payload`. -/
def integerLoop (v : UInt64) (plLen : ℕ) (out : Bytes) : Option Bytes :=
  (List.range plLen).foldlM
    (fun out i => put out (i + 2) (v >>> UInt64.ofNat (plLen * 8 - (i + 1) * 8)).toUInt8) out

/-- `snmp_integer::get_payload`: the type, the length, and as many bytes of the
number as the length leaves. -/
def integerPayload (type : SnmpIntegerType) (v : UInt64) (len : UInt8) : Option SnmpPayload := do
  let plLen := len - 2
  let out := newBuffer len.toNat
  let out ← put out 0 type.snmpType
  let out ← put out 1 plLen
  let out ← integerLoop v plLen.toNat out
  some ⟨out, len⟩

/-- `snmp_null::get_payload`. -/
def nullPayload : Option SnmpPayload := do
  let out ← put (newBuffer 2) 0 0x05
  let out ← put out 1 0x00
  some ⟨out, 2⟩

/-- `snmp_octet_string::get_payload`. The length has eight bits, and of the text
as much is copied as it says. -/
def octetStringPayload (v : Bytes) (len : UInt8) : Option SnmpPayload := do
  let outLen := len
  let plLen := len - 2
  let out ← blit (newBuffer outLen.toNat) 2 (v.take plLen.toNat)
  let out ← put out 0 0x04
  let out ← put out 1 plLen
  some ⟨out, outLen⟩

/-- `snmp_oid::get_payload`: the type, the length, and as much of the encoding
as the length says. -/
def oidPayload (v : Bytes) (len : UInt8) : Option SnmpPayload := do
  let outLen := len
  let plLen := len - 2
  let out ← put (newBuffer outLen.toNat) 0 0x06
  let out ← put out 1 plLen
  let out ← if plLen ≠ 0 then blit out 2 (v.take plLen.toNat) else some out
  some ⟨out, outLen⟩

mutual

/-- `get_payload`, the virtual function, for each class. `none` is a write over
the end of a buffer. -/
def SnmpElem.getPayload : SnmpElem → Option SnmpPayload
  | .integer type v len => integerPayload type v len
  | .sequence elems => do
    let out ← put (newBuffer 258) 0 0x30
    let (out, o) ← sequenceLoop elems out 2
    let out ← put out 1 (o - 2)
    some ⟨out, o⟩
  | .null => nullPayload
  | .octetString v len => octetStringPayload v len
  | .oid v len => oidPayload v len
  | .pdu type elems => do
    -- `snmp_sequence::get_payload`, then the type over the 0x30
    let out ← put (newBuffer 258) 0 0x30
    let (out, o) ← sequenceLoop elems out 2
    let out ← put out 1 (o - 2)
    let out ← put out 0 type
    some ⟨out, o⟩

/-- The loop of `snmp_sequence::get_payload`. The offset `o` has eight bits. -/
def sequenceLoop : List SnmpElem → Bytes → UInt8 → Option (Bytes × UInt8)
  | [], out, o => some (out, o)
  | e :: elems, out, o => do
    let pl ← e.getPayload
    if o.toNat + pl.second.toNat ≥ 257 then some (out, o)
    else do
      let out ← blit out o.toNat (pl.first.take pl.second.toNat)
      sequenceLoop elems out (o + pl.second)

end

end IscsiTarget
