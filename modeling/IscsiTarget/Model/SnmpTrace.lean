import IscsiTarget.Lib.Traced
import IscsiTarget.Model.Snmp

/-!
# What the parser does on the way

`process_BER` again, with blocks as they are in the source, which know how far they have been
read, and with the steps it takes written down: the bytes it fetches, the calls it makes, the
values it comes to and the request-ids it reads.

A value is noted as soon as it is there, with its type and its content, before the code has
decided anything about it. So the notes do not depend on what the code thinks of a value, and
what is malformed can be said in terms of the encoding alone.
-/

namespace IscsiTarget

/-- `block`: its bytes and how many of them have been read. -/
structure Block where
  data : Bytes
  offset : ℕ
  offset_le : offset ≤ data.length

/-- A value the parser comes to, accepted or not, with what it has to be in that
place. -/
inductive SnmpValue
  /-- An element of the loop of `process_BER`: its type and its content. -/
  | element (type : UInt8) (octets : Bytes)
  /-- A part of what `process_PDU` reads, which has to be of the type
  `expected`: one of the three numbers, the list of varbinds, a varbind. -/
  | field (expected type : UInt8)
  deriving DecidableEq, Repr

/-- A step of the parser. -/
inductive ParserEvent
  /-- `len` bytes are read from `offset` on, in a block of `size` bytes. -/
  | fetch (size offset len : ℕ)
  /-- More bytes are asked for than there are: `std::range_error`. -/
  | short
  /-- A call for a block of `size` bytes, made when the element it comes from
  still was in the `left` bytes of the block above. -/
  | call (left size : ℕ)
  /-- The parser is at a value. The flag says whether it lies in a varbind. -/
  | value (inVarbind : Bool) (val : SnmpValue)
  /-- The content of a request-id. -/
  | requestId (octets : Bytes)
  deriving DecidableEq, Repr

abbrev Parse (α : Type) := Traced ParserEvent SnmpFault α

open Traced (emit fault after)

namespace Block

/-- `block::block`. -/
def ofBytes (data : Bytes) : Block := ⟨data, 0, Nat.zero_le _⟩

/-- The bytes that have not been read. -/
def left (b : Block) : Bytes := b.data.drop b.offset

/-- `block::is_empty`. -/
def isEmpty (b : Block) : Bool := b.offset = b.data.length

/-- `block::get_bytes_left`. -/
def getBytesLeft (b : Block) : ℕ := b.data.length - b.offset

/-- `throw std::range_error`. -/
def throwRange {α : Type} : Parse α := ⟨[.short], .error .rangeError⟩

/-- `block::get_byte`: the byte, and the block behind it. At the end of the
block it throws. -/
def getByte (b : Block) : Parse (UInt8 × Block) :=
  if h : b.offset = b.data.length then throwRange
  else
    have h_lt : b.offset < b.data.length := lt_of_le_of_ne b.offset_le h
    ⟨[.fetch b.data.length b.offset 1], .ok (b.data[b.offset], ⟨b.data, b.offset + 1, h_lt⟩)⟩

/-- `block::get_bytes`. -/
def getBytes (len : ℕ) (b : Block) : Parse (Block × Block) :=
  if h : b.offset + len > b.data.length then throwRange
  else ⟨[.fetch b.data.length b.offset len],
    .ok (ofBytes ((b.data.drop b.offset).take len), ⟨b.data, b.offset + len, not_lt.mp h⟩)⟩

/-- `block::skip_bytes`. -/
def skipBytes (len : ℕ) (b : Block) : Parse Block :=
  if h : b.offset + len > b.data.length then throwRange
  else pure ⟨b.data, b.offset + len, not_lt.mp h⟩

/-- The first `len` bytes behind `block::get_data`. -/
def getData (len : ℕ) (b : Block) : Parse Bytes :=
  ⟨[.fetch b.data.length 0 len], .ok (b.data.take len)⟩

/-- `get_type_length`. -/
def getTypeLength (b : Block) : Parse ((UInt8 × UInt8) × Block) := do
  let (type, b) ← b.getByte
  let (length, b) ← b.getByte
  pure ((type, length), b)

/-- The start of each turn: a type, a length and a block of that many bytes. -/
def getElement (b : Block) : Parse ((UInt8 × UInt8 × Block) × Block) := do
  let ((type, length), b) ← b.getTypeLength
  let (temp, b) ← b.getBytes length.toNat
  pure ((type, length, temp), b)

theorem length_left (b : Block) : b.left.length = b.data.length - b.offset := List.length_drop

theorem left_ofBytes (data : Bytes) : (ofBytes data).left = data := rfl

theorem left_eq_nil_iff (b : Block) : b.left = [] ↔ b.isEmpty = true := by
  have h_le := b.offset_le
  rw [← List.length_eq_zero_iff, length_left, isEmpty, decide_eq_true_eq]
  omega

theorem getByte_result (b : Block) :
    b.getByte.result.map (fun r => (r.1, r.2.left)) = IscsiTarget.getByte b.left := by
  unfold getByte
  split
  · next h =>
    rw [(left_eq_nil_iff b).mpr (decide_eq_true h)]
    rfl
  · next h =>
    have h_lt : b.offset < b.data.length := lt_of_le_of_ne b.offset_le h
    rw [left, List.drop_eq_getElem_cons h_lt]
    rfl

theorem getBytes_result (len : ℕ) (b : Block) :
    (b.getBytes len).result.map (fun r => (r.1.left, r.2.left)) =
      IscsiTarget.getBytes len b.left := by
  have h_le := b.offset_le
  unfold getBytes IscsiTarget.getBytes
  rw [length_left]
  split
  · rw [if_pos (by omega)]
    rfl
  · rw [if_neg (by omega), left, List.drop_drop]
    rfl

theorem skipBytes_result (len : ℕ) (b : Block) :
    (b.skipBytes len).result.map left = IscsiTarget.skipBytes len b.left := by
  have h_le := b.offset_le
  unfold skipBytes IscsiTarget.skipBytes
  rw [length_left]
  split
  · rw [if_pos (by omega)]
    rfl
  · rw [if_neg (by omega), left, List.drop_drop]
    rfl

theorem getTypeLength_result (b : Block) :
    b.getTypeLength.result.map (fun r => (r.1, r.2.left)) = IscsiTarget.getTypeLength b.left :=
  Traced.map_result_bind (getByte_result b) fun ⟨_, b₁⟩ _ =>
    Traced.map_result_bind (getByte_result b₁) fun _ _ => rfl

theorem getElement_result (b : Block) :
    b.getElement.result.map (fun r => ((r.1.1, r.1.2.2.left), r.2.left)) =
      IscsiTarget.getElement b.left :=
  Traced.map_result_bind (getTypeLength_result b) fun ⟨⟨_, length⟩, b₁⟩ _ =>
    Traced.map_result_bind (getBytes_result length.toNat b₁) fun _ _ => rfl

/-- The element a block starts with, and the bytes it takes. -/
theorem getElement_ok {b temp rest : Block} {type length : UInt8} {events : List ParserEvent}
    (h : b.getElement = ⟨events, .ok ((type, length, temp), rest)⟩) :
    IscsiTarget.getElement b.left = .ok ((type, temp.left), rest.left) ∧
      temp.left.length + rest.left.length + 2 = b.left.length := by
  have h_result := getElement_result b
  rw [h] at h_result
  exact ⟨h_result.symm, (getElement_length h_result.symm).1⟩

theorem getElement_error {b : Block} {events : List ParserEvent} {e : SnmpFault}
    (h : b.getElement = ⟨events, .error e⟩) : IscsiTarget.getElement b.left = .error e := by
  have h_result := getElement_result b
  rw [h] at h_result
  exact h_result.symm

/-- All the bytes that are left, one by one: what the loops of `get_INTEGER` and
`get_OID` take. -/
def readAll (b : Block) : Parse Bytes :=
  if b.isEmpty then pure []
  else
    match _h : b.getByte with
    | ⟨events, .error e⟩ => ⟨events, .error e⟩
    | ⟨events, .ok (octet, rest)⟩ => after events do
      let octets ← rest.readAll
      pure (octet :: octets)
termination_by b.left.length
decreasing_by
  have h_result := getByte_result b
  rw [_h] at h_result
  have h_len : rest.left.length + 1 = b.left.length := getByte_length h_result.symm
  omega

/-- One of the two numbers of a PDU nobody looks at. -/
def skipInteger (inVarbind : Bool) (b : Block) : Parse (Option Block) := do
  let ((type, length), b) ← b.getTypeLength
  emit (.value inVarbind (.field 0x02 type))
  if type ≠ 0x02 then pure none
  else do
    let b ← b.skipBytes length.toNat
    pure (some b)

/-- The part of `process_PDU` from the error on, as far as the varbind list. -/
def varbindList (inVarbind : Bool) (b : Block) : Parse (Option Block) := do
  match ← b.skipInteger inVarbind with
  | none => pure none
  | some b =>
    match ← b.skipInteger inVarbind with
    | none => pure none
    | some b => do
      let (type, b) ← b.getByte
      emit (.value inVarbind (.field 0x30 type))
      if type ≠ 0x30 then pure none
      else do
        let (length, b) ← b.getByte
        let (temp, _) ← b.getBytes length.toNat
        pure (some temp)

theorem skipInteger_result (inVarbind : Bool) (b : Block) :
    (b.skipInteger inVarbind).result.map (Option.map left) = IscsiTarget.skipInteger b.left := by
  refine Traced.map_result_bind (getTypeLength_result b) fun ⟨⟨type, length⟩, b₁⟩ _ => ?_
  dsimp only
  rw [Traced.emit_bind, Traced.result_after]
  split
  · rfl
  · exact Traced.map_result_bind (skipBytes_result length.toNat b₁) fun _ _ => rfl

theorem varbindList_result (inVarbind : Bool) (b : Block) :
    (b.varbindList inVarbind).result.map (Option.map left) = IscsiTarget.varbindList b.left := by
  refine Traced.map_result_bind (skipInteger_result inVarbind b) fun b₁ _ => ?_
  cases b₁ with
  | none => rfl
  | some b₁ =>
    refine Traced.map_result_bind (skipInteger_result inVarbind b₁) fun b₂ _ => ?_
    cases b₂ with
    | none => rfl
    | some b₂ =>
      refine Traced.map_result_bind (getByte_result b₂) fun ⟨type, b₃⟩ _ => ?_
      dsimp only
      rw [Traced.emit_bind, Traced.result_after]
      split
      · rfl
      · refine Traced.map_result_bind (getByte_result b₃) fun ⟨length, b₄⟩ _ => ?_
        exact Traced.map_result_bind (getBytes_result length.toNat b₄) fun _ _ => rfl

end Block

/-! ### The parser -/

/-- What `process_BER` does with an integer: the first one at the top is the
version, and all others are passed over. -/
def takeVersion (first : Bool) (temp : Block) (oidsReq : OidReq) : Parse OidReq :=
  if first then do
    let octets ← temp.readAll
    pure { oidsReq with version := uint64ToInt (getInteger octets) }
  else pure oidsReq

/-- The same for an octet string and the community string: the first one at the
top is it. -/
def takeCommunity (first : Bool) (length : UInt8) (temp : Block) (oidsReq : OidReq) :
    Parse OidReq :=
  if first then do
    let community ← temp.getData length.toNat
    pure { oidsReq with community := community }
  else pure oidsReq

mutual

/-- `process_BER`. `inVarbind` says whether it was called for a varbind, or
below one. -/
def tracedBER (sd : SnmpData) (isGetnext : Bool) (isTop : ℤ)
    (firstInteger firstOctetStr inVarbind : Bool) (b : Block) (oidsReq : OidReq) :
    Parse (Bool × OidReq) :=
  if b.isEmpty then pure (true, oidsReq)
  else
    match _h : b.getElement with
    | ⟨events, .error e⟩ => ⟨events, .error e⟩
    | ⟨events, .ok ((type, length, temp), rest)⟩ =>
      after events <|
      after [.value inVarbind (.element type temp.left)] <|
      if type = 0x02 then do  -- integer
        let oidsReq ← takeVersion (isTop ≠ 0 ∧ firstInteger) temp oidsReq
        tracedBER sd isGetnext isTop false firstOctetStr inVarbind rest oidsReq
      else if type = 0x04 then do  -- octet string
        let oidsReq ← takeCommunity (isTop ≠ 0 ∧ firstOctetStr) length temp oidsReq
        tracedBER sd isGetnext isTop firstInteger false inVarbind rest oidsReq
      else if type = 0x05 then  -- null
        tracedBER sd isGetnext isTop firstInteger firstOctetStr inVarbind rest oidsReq
      else if type = 0x06 then do  -- object identifier
        let octets ← temp.readAll
        match getOID octets with
        | none => pure (false, oidsReq)
        | some oidOut =>
          match pushOid sd isGetnext oidOut oidsReq with
          | .error e => fault e
          | .ok oidsReq =>
            tracedBER sd isGetnext isTop firstInteger firstOctetStr inVarbind rest oidsReq
      else if type = 0x30 then do  -- sequence
        emit (.call b.getBytesLeft temp.data.length)
        let (ok, oidsReq) ← tracedBER sd isGetnext (isTop - 1) true true inVarbind temp oidsReq
        if ok then tracedBER sd isGetnext isTop firstInteger firstOctetStr inVarbind rest oidsReq
        else pure (false, oidsReq)
      else if type = 0xa0 ∨ type = 0xa1 ∨ type = 0xa3 then do  -- PDU
        emit (.call b.getBytesLeft temp.data.length)
        let (ok, oidsReq) ← tracedPDU sd (isGetnext || type = 0xa1) inVarbind temp oidsReq
        if ok then tracedBER sd isGetnext isTop firstInteger firstOctetStr inVarbind rest oidsReq
        else pure (false, oidsReq)
      else pure (false, oidsReq)
termination_by b.left.length
decreasing_by all_goals have := (Block.getElement_ok _h).2; omega

/-- `process_PDU`, with the trace. The flag is handed on, since a PDU may stand
inside a varbind. -/
def tracedPDU (sd : SnmpData) (isGetnext inVarbind : Bool) (b : Block) (oidsReq : OidReq) :
    Parse (Bool × OidReq) :=
  match _h : b.getTypeLength with
  | ⟨events, .error e⟩ => ⟨events, .error e⟩
  | ⟨events, .ok ((type, length), b₁)⟩ =>
    after events <|
    after [.value inVarbind (.field 0x02 type)] <|
    if type ≠ 0x02 then pure (false, oidsReq)
    else
      match _h₁ : b₁.getBytes length.toNat with
      | ⟨events, .error e⟩ => ⟨events, .error e⟩
      | ⟨events, .ok (idBytes, b₂)⟩ => after events do
        let octets ← idBytes.readAll
        emit (.requestId octets)
        let oidsReq := { oidsReq with reqId := getInteger octets }
        match _h₂ : b₂.varbindList inVarbind with
        | ⟨events, .error e⟩ => ⟨events, .error e⟩
        | ⟨events, .ok none⟩ => after events (pure (false, oidsReq))
        | ⟨events, .ok (some temp)⟩ =>
          after events (tracedVarbinds sd isGetnext inVarbind temp oidsReq)
termination_by b.left.length
decreasing_by
  have h_id := Block.getTypeLength_result b
  have h_bytes := Block.getBytes_result length.toNat b₁
  have h_list := Block.varbindList_result inVarbind b₂
  rw [_h] at h_id
  rw [_h₁] at h_bytes
  rw [_h₂] at h_list
  have h_len : b₁.left.length + 2 = b.left.length := getTypeLength_length h_id.symm
  have h_len₁ : idBytes.left.length + b₂.left.length = b₁.left.length :=
    (getBytes_length h_bytes.symm).2
  have h_len₂ : temp.left.length < b₂.left.length := varbindList_length h_list.symm
  omega

/-- The loop of `process_PDU` over the varbind list. What `process_BER` returns
for a varbind is dropped, here as in the source. -/
def tracedVarbinds (sd : SnmpData) (isGetnext inVarbind : Bool) (temp : Block)
    (oidsReq : OidReq) : Parse (Bool × OidReq) :=
  if temp.isEmpty then pure (true, oidsReq)
  else
    match _h : temp.getElement with
    | ⟨events, .error e⟩ => ⟨events, .error e⟩
    | ⟨events, .ok ((seqType, _, seqData), rest)⟩ =>
      after events <|
      after [.value inVarbind (.field 0x30 seqType)] <|
      if seqType = 0x30 then do
        emit (.call temp.getBytesLeft seqData.data.length)
        let (_, oidsReq) ← tracedBER sd isGetnext 0 true true true seqData oidsReq
        tracedVarbinds sd isGetnext inVarbind rest oidsReq
      else pure (false, oidsReq)
termination_by temp.left.length
decreasing_by all_goals have := (Block.getElement_ok _h).2; omega

end

/-- `process_BER` for a packet, as `thread` calls it. -/
def tracedPacket (sd : SnmpData) (packet : Bytes) : Parse (Bool × OidReq) :=
  tracedBER sd false 2 true true false (Block.ofBytes packet) {}

end IscsiTarget
