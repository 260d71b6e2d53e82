import IscsiTarget.Model.SnmpData

/-!
# SNMP requests and replies

`process_BER` reads a packet into an `oid_req_t` and `gen_reply` answers it. A `block` is
modelled by the bytes that are left of it; taking more than there are throws
`std::range_error`, which the thread catches: such a packet is not answered.
-/

namespace IscsiTarget

/-- What ends the reading of a packet besides a `false`. -/
inductive SnmpFault
  /-- `std::range_error`, thrown by `block`. -/
  | rangeError
  /-- `find_next_oid` on an empty tree. -/
  | nullPointer
  deriving DecidableEq, Repr

/-- `oid_req_t`: what is read off a request, and what its reply is made from. -/
structure OidReq where
  oids : List Bytes := []
  reqId : UInt64 := 0
  err : ℤ := 0
  errIdx : ℤ := 0
  version : ℤ := 0
  community : Bytes := []
  deriving DecidableEq, Repr

/-! ### `block` -/

/-- `block::get_byte`. -/
def getByte : Bytes → Except SnmpFault (UInt8 × Bytes)
  | [] => .error .rangeError
  | b :: block => .ok (b, block)

/-- `block::get_bytes`. -/
def getBytes (len : ℕ) (block : Bytes) : Except SnmpFault (Bytes × Bytes) :=
  if len > block.length then .error .rangeError else .ok (block.take len, block.drop len)

/-- `block::skip_bytes`. -/
def skipBytes (len : ℕ) (block : Bytes) : Except SnmpFault Bytes :=
  if len > block.length then .error .rangeError else .ok (block.drop len)

/-- `get_type_length`. -/
def getTypeLength (block : Bytes) : Except SnmpFault ((UInt8 × UInt8) × Bytes) := do
  let (type, block) ← getByte block
  let (length, block) ← getByte block
  .ok ((type, length), block)

/-- The start of each turn of the loops below: a type, a length and that many
bytes. -/
def getElement (block : Bytes) : Except SnmpFault ((UInt8 × Bytes) × Bytes) := do
  let ((type, length), block) ← getTypeLength block
  let (temp, block) ← getBytes length.toNat block
  .ok ((type, temp), block)

/-- A computation that goes on has got through its first step. -/
theorem SnmpFault.bind_eq_ok {α β : Type} {x : Except SnmpFault α} {f : α → Except SnmpFault β}
    {b : β} (h : (x >>= f) = .ok b) : ∃ a, x = .ok a ∧ f a = .ok b := by
  cases x with
  | error e => exact absurd h (by simp [bind, Except.bind])
  | ok a => exact ⟨a, rfl, h⟩

theorem getByte_length {block rest : Bytes} {b : UInt8} (h : getByte block = .ok (b, rest)) :
    rest.length + 1 = block.length := by
  cases block with
  | nil => cases h
  | cons b' block =>
    cases h
    rfl

theorem getBytes_length {len : ℕ} {block temp rest : Bytes}
    (h : getBytes len block = .ok (temp, rest)) :
    temp.length = len ∧ temp.length + rest.length = block.length := by
  unfold getBytes at h
  split at h
  · cases h
  · cases h
    simp only [List.length_take, List.length_drop]
    omega

theorem skipBytes_length {len : ℕ} {block rest : Bytes} (h : skipBytes len block = .ok rest) :
    rest.length ≤ block.length := by
  unfold skipBytes at h
  split at h
  · cases h
  · cases h
    simp

theorem getTypeLength_length {block rest : Bytes} {tl : UInt8 × UInt8}
    (h : getTypeLength block = .ok (tl, rest)) : rest.length + 2 = block.length := by
  obtain ⟨⟨type, r⟩, h_type, h⟩ := SnmpFault.bind_eq_ok h
  obtain ⟨⟨length, r'⟩, h_length, h⟩ := SnmpFault.bind_eq_ok h
  cases h
  have h₁ := getByte_length h_type
  have h₂ := getByte_length h_length
  omega

theorem getElement_length {block temp rest : Bytes} {type : UInt8}
    (h : getElement block = .ok ((type, temp), rest)) :
    temp.length + rest.length + 2 = block.length ∧ temp.length < 256 := by
  obtain ⟨⟨⟨type', length⟩, r⟩, h_tl, h⟩ := SnmpFault.bind_eq_ok h
  obtain ⟨⟨temp', r'⟩, h_bytes, h⟩ := SnmpFault.bind_eq_ok h
  cases h
  have h₁ := getTypeLength_length h_tl
  have h₂ := getBytes_length h_bytes
  have h_lt := length.toNat_lt
  omega

/-! ### Values -/

/-- `get_INTEGER`. -/
def getInteger (block : Bytes) : UInt64 := block.foldl (fun v b => v <<< 8 ||| b.toUInt64) 0

/-- The conversion of a `uint64_t` to `int`. -/
def uint64ToInt (v : UInt64) : ℤ := (v.toNat : ℤ).bmod (2 ^ 32)

/-- The conversion of an `int` to `uint64_t`. -/
def intToUint64 (v : ℤ) : UInt64 := UInt64.ofNat (v % 2 ^ 64).toNat

/-- A `uint32_t` as an `int`. -/
def subIdValue (v : UInt32) : ℤ := v.toInt32.toInt

/-- `%d` of a `uint32_t`. -/
def subIdText (v : UInt32) : Bytes := signedText (subIdValue v)

/-- The loop of `get_OID`; `none` is its `false`. A sub-identifier ends with the
first byte below 128, and the first one may stand for two arcs. -/
def getOidLoop : Bytes → Bool → UInt32 → Bytes → Option Bytes
  | [], _, v, oidOut => if v ≠ 0 then none else some oidOut
  | curByte :: block, first, v, oidOut =>
    if curByte < 128 then
      let v := v <<< 7 ||| curByte.toUInt32
      let part := if first ∧ v = 43 then ascii "1.3" else 46 :: subIdText v
      getOidLoop block false 0 (oidOut ++ part)
    else getOidLoop block false (v <<< 7 ||| (curByte &&& 127).toUInt32) oidOut

/-- `get_OID`. -/
def getOID (block : Bytes) : Option Bytes := getOidLoop block true 0 []

/-! ### `process_BER` -/

/-- What `process_BER` does with an OID it has read: it is asked for itself or,
in a GetNext, for the one that follows it. -/
def pushOid (sd : SnmpData) (isGetnext : Bool) (oid : Bytes) (oidsReq : OidReq) :
    Except SnmpFault OidReq :=
  if isGetnext then
    match sd.findNextOid oid with
    | none => .error .nullPointer
    | some oidNext =>
      if oidNext = [] then .ok { oidsReq with err := 2, errIdx := 1 }
      else .ok { oidsReq with oids := oidsReq.oids ++ [oidNext] }
  else .ok { oidsReq with oids := oidsReq.oids ++ [oid] }

/-- One of the two numbers of a PDU nobody looks at; `none` is the `false` of
the source. -/
def skipInteger (block : Bytes) : Except SnmpFault (Option Bytes) := do
  let ((type, length), block) ← getTypeLength block
  if type ≠ 0x02 then .ok none
  else do
    let block ← skipBytes length.toNat block
    .ok (some block)

/-- The part of `process_PDU` from the error on, as far as the varbind list.
`none` is the `false` of the source. -/
def varbindList (block : Bytes) : Except SnmpFault (Option Bytes) := do
  match ← skipInteger block with
  | none => .ok none
  | some block =>
    match ← skipInteger block with
    | none => .ok none
    | some block => do
      let (type, block) ← getByte block
      if type ≠ 0x30 then .ok none
      else do
        let (length, block) ← getByte block
        let (temp, _) ← getBytes length.toNat block
        .ok (some temp)

theorem skipInteger_length {block rest : Bytes} (h : skipInteger block = .ok (some rest)) :
    rest.length < block.length := by
  obtain ⟨⟨⟨type, length⟩, r⟩, h_tl, h⟩ := SnmpFault.bind_eq_ok h
  have h₁ := getTypeLength_length h_tl
  dsimp only at h
  split at h
  · cases h
  · obtain ⟨r', h_skip, h⟩ := SnmpFault.bind_eq_ok h
    cases h
    have h₂ := skipBytes_length h_skip
    omega

theorem varbindList_length {block temp : Bytes} (h : varbindList block = .ok (some temp)) :
    temp.length < block.length := by
  obtain ⟨error, h_error, h⟩ := SnmpFault.bind_eq_ok h
  cases error with
  | none => cases h
  | some block₁ =>
    obtain ⟨errorIndex, h_index, h⟩ := SnmpFault.bind_eq_ok h
    cases errorIndex with
    | none => cases h
    | some block₂ =>
      obtain ⟨⟨type, block₃⟩, h_type, h⟩ := SnmpFault.bind_eq_ok h
      dsimp only at h
      split at h
      · cases h
      · obtain ⟨⟨length, block₄⟩, h_length, h⟩ := SnmpFault.bind_eq_ok h
        obtain ⟨⟨temp', block₅⟩, h_temp, h⟩ := SnmpFault.bind_eq_ok h
        cases h
        have h₁ := skipInteger_length h_error
        have h₂ := skipInteger_length h_index
        have h₃ := getByte_length h_type
        have h₄ := getByte_length h_length
        have h₅ := getBytes_length h_temp
        dsimp only at h₅ ⊢
        omega

mutual

/-- `process_BER`. The flags are those of its loop; the result is that of the
source and what it has made of the request. -/
def processBER (sd : SnmpData) (isGetnext : Bool) (isTop : ℤ) (firstInteger firstOctetStr : Bool)
    (block : Bytes) (oidsReq : OidReq) : Except SnmpFault (Bool × OidReq) :=
  if block = [] then .ok (true, oidsReq)
  else
    match _h : getElement block with
    | .error e => .error e
    | .ok ((type, temp), rest) =>
      if type = 0x02 then  -- integer
        let oidsReq :=
          if isTop ≠ 0 ∧ firstInteger then { oidsReq with version := uint64ToInt (getInteger temp) }
          else oidsReq
        processBER sd isGetnext isTop false firstOctetStr rest oidsReq
      else if type = 0x04 then  -- octet string
        let oidsReq :=
          if isTop ≠ 0 ∧ firstOctetStr then { oidsReq with community := temp } else oidsReq
        processBER sd isGetnext isTop firstInteger false rest oidsReq
      else if type = 0x05 then  -- null
        processBER sd isGetnext isTop firstInteger firstOctetStr rest oidsReq
      else if type = 0x06 then  -- object identifier
        match getOID temp with
        | none => .ok (false, oidsReq)
        | some oidOut =>
          match pushOid sd isGetnext oidOut oidsReq with
          | .error e => .error e
          | .ok oidsReq =>
            processBER sd isGetnext isTop firstInteger firstOctetStr rest oidsReq
      else if type = 0x30 then  -- sequence
        match processBER sd isGetnext (isTop - 1) true true temp oidsReq with
        | .error e => .error e
        | .ok (false, oidsReq) => .ok (false, oidsReq)
        | .ok (true, oidsReq) =>
          processBER sd isGetnext isTop firstInteger firstOctetStr rest oidsReq
      else if type = 0xa0 ∨ type = 0xa1 ∨ type = 0xa3 then  -- Get, GetNext and SetRequest PDU
        match processPDU sd (isGetnext || type = 0xa1) temp oidsReq with
        | .error e => .error e
        | .ok (false, oidsReq) => .ok (false, oidsReq)
        | .ok (true, oidsReq) =>
          processBER sd isGetnext isTop firstInteger firstOctetStr rest oidsReq
      else .ok (false, oidsReq)
termination_by block.length
decreasing_by all_goals have := getElement_length _h; omega

/-- `process_PDU`: the request ID, two numbers nobody looks at, and the
varbinds. Each part has to have its type. -/
def processPDU (sd : SnmpData) (isGetnext : Bool) (block : Bytes) (oidsReq : OidReq) :
    Except SnmpFault (Bool × OidReq) :=
  match _h : getTypeLength block with
  | .error e => .error e
  | .ok ((type, length), block₁) =>
    if type ≠ 0x02 then .ok (false, oidsReq)
    else
      match _h₁ : getBytes length.toNat block₁ with
      | .error e => .error e
      | .ok (idBytes, block₂) =>
        let oidsReq := { oidsReq with reqId := getInteger idBytes }
        match _h₂ : varbindList block₂ with
        | .error e => .error e
        | .ok none => .ok (false, oidsReq)
        | .ok (some temp) => varbindLoop sd isGetnext temp oidsReq
termination_by block.length
decreasing_by
  have := getTypeLength_length _h
  have := getBytes_length _h₁
  have := varbindList_length _h₂
  omega

/-- The loop of `process_PDU` over the varbind list. What `process_BER` returns
for a varbind is not looked at. -/
def varbindLoop (sd : SnmpData) (isGetnext : Bool) (temp : Bytes) (oidsReq : OidReq) :
    Except SnmpFault (Bool × OidReq) :=
  if temp = [] then .ok (true, oidsReq)
  else
    match _h : getElement temp with
    | .error e => .error e
    | .ok ((seqType, seqData), rest) =>
      if seqType = 0x30 then
        match processBER sd isGetnext 0 true true seqData oidsReq with
        | .error e => .error e
        | .ok (_, oidsReq) => varbindLoop sd isGetnext rest oidsReq
      else .ok (false, oidsReq)
termination_by temp.length
decreasing_by all_goals have := getElement_length _h; omega

end

/-- A packet `thread` goes on to answer: one `process_BER` returns true for,
without having thrown. -/
def acceptPacket (sd : SnmpData) (packet : Bytes) : Option OidReq :=
  match processBER sd false 2 true true packet {} with
  | .ok (true, oidsReq) => some oidsReq
  | _ => none

/-! ### `gen_reply` -/

/-- The value `gen_reply` puts behind an OID. An OID that ends in `.0` is also
looked up without that. -/
def replyValue (sd : SnmpData) (readings : SnmpReadings) (e : Bytes) : SnmpElem :=
  let rc := sd.findByOid readings e
  let rc :=
    match rfindChar 46 e with
    | none => rc
    | some dot =>
      if rc.isNone ∧ e.drop dot = ascii ".0" then sd.findByOid readings (e.take dot) else rc
  match rc with
  | some (some currentElement) => currentElement
  | _ => .null

/-- One varbind of the reply. -/
def replyVarbind (sd : SnmpData) (readings : SnmpReadings) (e : Bytes) : Option SnmpElem := do
  let name ← snmpOid e
  some (.sequence [name, replyValue sd readings e])

/-- The community string of the reply. -/
def replyCommunity (oidsReq : OidReq) : Bytes :=
  if oidsReq.community = [] then ascii "public" else oidsReq.community

/-- `gen_reply`: a varbind for each OID, the PDU around them, and the sequence
around it all. `none` is a write over the end of a buffer. -/
def genReply (sd : SnmpData) (readings : SnmpReadings) (oidsReq : OidReq) : Option SnmpPayload := do
  let varbinds ← oidsReq.oids.mapM (replyVarbind sd readings)
  let varbindList := SnmpElem.sequence varbinds
  let getResponsePDU := SnmpElem.pdu 0xa2
    [ snmpInteger .integer oidsReq.reqId,
      snmpInteger .integer (intToUint64 oidsReq.err),
      snmpInteger .integer (intToUint64 oidsReq.errIdx),
      varbindList ]
  let se := SnmpElem.sequence
    [ snmpInteger .integer (intToUint64 oidsReq.version),
      snmpOctetString (replyCommunity oidsReq),
      getResponsePDU ]
  se.getPayload

end IscsiTarget
