import IscsiTarget.Lib.BigEndian
import IscsiTarget.Snmp.Parse
import IscsiTarget.Snmp.Reply
import IscsiTarget.Snmp.Sequence

/-!
# The request-id of a reply

A request-id is an INTEGER, in two's complement. `get_INTEGER` puts its octets together without
looking at the sign, and what the last one was that was read is what the reply is made with
(`reqId_eq`). The reply has it in four octets, so that the sign comes back only when it was in
the first of four: `requestId_iff`. `genReply_bytes` finds the four octets in what is sent.
-/

namespace IscsiTarget

open Traced (emit fault after All bind_of_ok bind_of_error)

/-! ### The request-id that was read last -/

/-- The request-ids among the events of the parser, in order. -/
def requestIds (events : List ParserEvent) : List Bytes :=
  events.filterMap fun
    | .requestId octets => some octets
    | _ => none

theorem requestIds_append (xs ys : List ParserEvent) :
    requestIds (xs ++ ys) = requestIds xs ++ requestIds ys := List.filterMap_append

/-- What the last one of these request-ids makes of the number `id`. -/
def idAfter (id : UInt64) (ids : List Bytes) : UInt64 := (ids.getLast?.map getInteger).getD id

theorem idAfter_append (id : UInt64) (xs ys : List Bytes) :
    idAfter id (xs ++ ys) = idAfter (idAfter id xs) ys := by
  unfold idAfter
  rw [List.getLast?_append]
  cases ys.getLast? with
  | none => rfl
  | some octets => rfl

/-- An event that is not the reading of a request-id. -/
def NoId (e : ParserEvent) : Prop := ∀ octets, e ≠ .requestId octets

instance : OfBlocks NoId :=
  ⟨fun _ _ h => (by cases h), fun _ h => (by cases h), fun _ _ _ h => (by cases h)⟩

theorem requestIds_of_noId {α : Type} {x : Parse α} (h : All NoId x) :
    requestIds x.events = [] := by
  refine List.filterMap_eq_nil_iff.mpr fun e h_e => ?_
  split
  · next octets => exact absurd rfl (h _ h_e octets)
  · rfl

/-- A part that starts with the number `id` and gives back the one of the last
request-id. -/
def IdFrom (id : UInt64) (x : Parse (Bool × OidReq)) : Prop :=
  ∀ r, x.result = .ok r → r.2.reqId = idAfter id (requestIds x.events)

section rules

variable {α : Type} {id : UInt64}

theorem IdFrom.pure {r : Bool × OidReq} (h : r.2.reqId = id) : IdFrom id (pure r) := by
  intro r' h_r
  cases h_r
  exact h

theorem IdFrom.of_error {events : List ParserEvent} {e : SnmpFault} :
    IdFrom id ⟨events, .error e⟩ := fun _ h => by cases h

/-- After a part that reads none. -/
theorem IdFrom.bind_noId {x : Parse α} {f : α → Parse (Bool × OidReq)} (h : All NoId x)
    (h_f : ∀ a, x.result = .ok a → IdFrom id (f a)) : IdFrom id (x >>= f) := by
  cases h_x : x.result with
  | error e =>
    rw [bind_of_error h_x]
    exact IdFrom.of_error
  | ok a =>
    rw [bind_of_ok h_x]
    intro r h_r
    show _ = idAfter id (requestIds (x.events ++ (f a).events))
    rw [requestIds_append, requestIds_of_noId h, List.nil_append]
    exact h_f a h_x r h_r

theorem IdFrom.after {events : List ParserEvent} {a : α} {y : Parse (Bool × OidReq)}
    (h : All NoId (⟨events, .ok a⟩ : Parse α)) (h_y : IdFrom id y) : IdFrom id (after events y) :=
  IdFrom.bind_noId (f := fun _ => y) h fun _ _ => h_y

/-- One part after the other: what the first one has made of the ID is what the
second one goes on with. -/
theorem IdFrom.bind {x : Parse (Bool × OidReq)} {f : Bool × OidReq → Parse (Bool × OidReq)}
    (h : IdFrom id x) (h_f : ∀ r, IdFrom r.2.reqId (f r)) : IdFrom id (x >>= f) := by
  cases h_x : x.result with
  | error e =>
    rw [bind_of_error h_x]
    exact IdFrom.of_error
  | ok r =>
    rw [bind_of_ok h_x]
    intro r' h_r
    show _ = idAfter id (requestIds (x.events ++ (f r).events))
    -- the id after both is that of the second, starting from that of the first
    rw [requestIds_append, idAfter_append, ← h r h_x]
    exact h_f r r' h_r

/-- A nested call. -/
theorem IdFrom.nested {x : Parse (Bool × OidReq)} {f : OidReq → Parse (Bool × OidReq)}
    (h : IdFrom id x) (h_f : ∀ oidsReq, IdFrom oidsReq.reqId (f oidsReq)) :
    IdFrom id (do
      let (ok, oidsReq) ← x
      if ok then f oidsReq else Pure.pure (false, oidsReq)) := by
  refine h.bind fun r => ?_
  obtain ⟨ok, oidsReq⟩ := r
  cases ok with
  | false => exact IdFrom.pure rfl
  | true => exact h_f oidsReq

/-- Behind a value that is noted. -/
theorem IdFrom.value {v : Bool} {val : SnmpValue} {y : Parse (Bool × OidReq)} (h : IdFrom id y) :
    IdFrom id (Traced.after [.value v val] y) :=
  IdFrom.bind_noId (x := emit (.value v val)) (All.emit fun _ h => by cases h) fun _ _ => h

/-- Where one is read. -/
theorem IdFrom.requestId {octets : Bytes} {y : Parse (Bool × OidReq)}
    (h : IdFrom (getInteger octets) y) : IdFrom id (Traced.after [.requestId octets] y) := by
  intro r h_r
  show _ = idAfter id (requestIds ([.requestId octets] ++ y.events))
  rw [requestIds_append, idAfter_append]
  exact h r h_r

end rules

/-! ### The parser -/

theorem takeVersion_reqId {first : Bool} {temp : Block} {oidsReq req : OidReq}
    (h : (takeVersion first temp oidsReq).result = .ok req) : req.reqId = oidsReq.reqId := by
  rw [takeVersion_result] at h
  cases h
  split <;> rfl

theorem takeCommunity_reqId {first : Bool} {length : UInt8} {temp : Block} {oidsReq req : OidReq}
    (h : (takeCommunity first length temp oidsReq).result = .ok req) :
    req.reqId = oidsReq.reqId := by
  unfold takeCommunity at h
  split at h <;> cases h <;> rfl

theorem pushOid_reqId {sd : SnmpData} {isGetnext : Bool} {oid : Bytes} {oidsReq req : OidReq}
    (h : pushOid sd isGetnext oid oidsReq = .ok req) : req.reqId = oidsReq.reqId := by
  unfold pushOid at h
  split at h
  · split at h
    · cases h
    · split at h <;> cases h <;> rfl
  · cases h
    rfl

mutual

theorem tracedBER_idFrom (sd : SnmpData) (isGetnext : Bool) (isTop : ℤ)
    (firstInteger firstOctetStr v : Bool) (b : Block) (oidsReq : OidReq) :
    IdFrom oidsReq.reqId
      (tracedBER sd isGetnext isTop firstInteger firstOctetStr v b oidsReq) := by
  -- only a PDU has a request id; whatever else is read leaves it as it was
  rw [tracedBER]
  split
  · exact IdFrom.pure rfl
  have h_element := (b.quiet_getElement (P := NoId) (v := v)).ok
  split
  · exact IdFrom.of_error
  next events type length temp rest h =>
  rw [h] at h_element
  have h_len := (Block.getElement_ok h).2
  refine IdFrom.after h_element (IdFrom.value ?_)
  split
  · -- integer
    refine IdFrom.bind_noId (quiet_takeVersion (v := v) _ temp oidsReq).ok fun req h_req => ?_
    rw [← takeVersion_reqId h_req]
    exact tracedBER_idFrom sd isGetnext isTop false firstOctetStr v rest req
  split
  · -- octet string
    have h_size := (Block.getElement_size h).1.ge
    refine IdFrom.bind_noId (quiet_takeCommunity (v := v) _ h_size oidsReq).ok fun req h_req => ?_
    rw [← takeCommunity_reqId h_req]
    exact tracedBER_idFrom sd isGetnext isTop firstInteger false v rest req
  split
  · -- null
    exact tracedBER_idFrom sd isGetnext isTop firstInteger firstOctetStr v rest oidsReq
  split
  · -- object identifier
    refine IdFrom.bind_noId (temp.quiet_readAll (v := v)).ok fun octets _ => ?_
    split
    · exact IdFrom.pure rfl
    · split
      · exact IdFrom.of_error
      · next req h_push =>
        rw [← pushOid_reqId h_push]
        exact tracedBER_idFrom sd isGetnext isTop firstInteger firstOctetStr v rest req
  split
  · -- sequence
    exact IdFrom.bind_noId (x := emit (.call _ _)) (All.emit fun _ h => by cases h) fun _ _ =>
      (tracedBER_idFrom sd isGetnext (isTop - 1) true true v temp oidsReq).nested fun req =>
        tracedBER_idFrom sd isGetnext isTop firstInteger firstOctetStr v rest req
  split
  · -- PDU
    exact IdFrom.bind_noId (x := emit (.call _ _)) (All.emit fun _ h => by cases h) fun _ _ =>
      (tracedPDU_idFrom sd _ v temp oidsReq).nested fun req =>
        tracedBER_idFrom sd isGetnext isTop firstInteger firstOctetStr v rest req
  · exact IdFrom.pure rfl
termination_by b.left.length
decreasing_by all_goals omega

theorem tracedPDU_idFrom (sd : SnmpData) (isGetnext v : Bool) (b : Block) (oidsReq : OidReq) :
    IdFrom oidsReq.reqId (tracedPDU sd isGetnext v b oidsReq) := by
  rw [tracedPDU]
  have h_type := (b.quiet_getTypeLength (P := NoId) (v := v)).ok
  have h_result := b.getTypeLength_result
  split
  · exact IdFrom.of_error
  next events type length b₁ h =>
  rw [h] at h_type h_result
  have h_len : b₁.left.length + 2 = b.left.length := getTypeLength_length h_result.symm
  refine IdFrom.after h_type (IdFrom.value ?_)
  split
  · exact IdFrom.pure rfl
  have h_bytes := (b₁.quiet_getBytes length.toNat (P := NoId) (v := v)).ok
  have h_result₁ := b₁.getBytes_result length.toNat
  split
  · exact IdFrom.of_error
  next events₁ idBytes b₂ h₁ =>
  rw [h₁] at h_bytes h_result₁
  have h_len₁ : idBytes.left.length + b₂.left.length = b₁.left.length :=
    (getBytes_length h_result₁.symm).2
  refine IdFrom.after h_bytes (IdFrom.bind_noId (idBytes.quiet_readAll (v := v)).ok
    fun octets _ => ?_)
  -- from here on the number is that of these octets
  rw [Traced.emit_bind]
  refine IdFrom.requestId ?_
  have h_list := (b₂.visits_varbindList (P := NoId) (v := v)).ok
  have h_result₂ := b₂.varbindList_result v
  dsimp only
  split
  · exact IdFrom.of_error
  · next events₂ h₂ =>
    rw [h₂] at h_list
    exact IdFrom.after h_list (IdFrom.pure rfl)
  · next events₂ temp h₂ =>
    rw [h₂] at h_list h_result₂
    have h_len₂ : temp.left.length < b₂.left.length := varbindList_length h_result₂.symm
    exact IdFrom.after h_list (tracedVarbinds_idFrom sd isGetnext v temp
      { oidsReq with reqId := getInteger octets })
termination_by b.left.length
decreasing_by all_goals omega

theorem tracedVarbinds_idFrom (sd : SnmpData) (isGetnext v : Bool) (temp : Block)
    (oidsReq : OidReq) : IdFrom oidsReq.reqId (tracedVarbinds sd isGetnext v temp oidsReq) := by
  rw [tracedVarbinds]
  -- an element, and the varbinds in it before the ones behind it
  split
  · exact IdFrom.pure rfl
  have h_element := (temp.quiet_getElement (P := NoId) (v := v)).ok
  split
  · exact IdFrom.of_error
  next events seqType _ seqData rest h =>
  rw [h] at h_element
  have h_len := (Block.getElement_ok h).2
  refine IdFrom.after h_element (IdFrom.value ?_)
  split
  · exact IdFrom.bind_noId (x := emit (.call _ _)) (All.emit fun _ h => by cases h) fun _ _ =>
      (tracedBER_idFrom sd isGetnext 0 true true true seqData oidsReq).bind fun ⟨_, req⟩ =>
        tracedVarbinds_idFrom sd isGetnext v rest req
  · exact IdFrom.pure rfl
termination_by temp.left.length
decreasing_by all_goals omega

end

/-- The request of a packet has the number of the last request-id in it. -/
theorem reqId_eq {sd : SnmpData} {packet : Bytes} {oidsReq : OidReq}
    (h : acceptPacket sd packet = some oidsReq) :
    oidsReq.reqId = idAfter 0 (requestIds (tracedPacket sd packet).events) := by
  have h_id := tracedBER_idFrom sd false 2 true true false (.ofBytes packet) {}
  have h_result := tracedBER_result sd false 2 true true false (.ofBytes packet) {}
  unfold acceptPacket at h
  split at h
  · next req h_ber =>
    cases h
    exact h_id (true, oidsReq) (h_result.trans h_ber)
  · cases h

/-! ### Decoding and encoding -/

theorem getInteger_toNat {octets : Bytes} (h : octets.length ≤ 8) :
    (getInteger octets).toNat = BigEndian.ofBytes octets := by
  -- on the octets from the front, each of which goes in from the right
  induction octets using List.reverseRecOn with
  | nil => rfl
  | append_singleton octets b ih =>
    rw [List.length_append, List.length_singleton] at h
    have h_lt := BigEndian.ofBytes_lt octets
    have h_pow : 2 ^ (8 * octets.length) ≤ 2 ^ 56 := Nat.pow_le_pow_right (by norm_num) (by omega)
    have h_eight : (8 : UInt64).toNat % 64 = 8 := rfl
    have h_b := b.toNat_lt
    have h_step : getInteger (octets ++ [b]) = getInteger octets <<< 8 ||| b.toUInt64 := by
      rw [getInteger, List.foldl_append]
      rfl
    rw [h_step, BigEndian.ofBytes_append_singleton, UInt64.toNat_or, UInt64.toNat_shiftLeft,
      h_eight, ih (by omega), UInt8.toNat_toUInt64, Nat.shiftLeft_eq,
      Nat.mod_eq_of_lt (by omega), Nat.mul_comm _ (2 ^ 8),
      ← Nat.two_pow_add_eq_or_of_lt (show b.toNat < 2 ^ 8 from h_b), Nat.mul_comm]

/-- The INTEGER of the reply that has the request-id. -/
def replyId (oidsReq : OidReq) : SnmpElem := snmpInteger .integer oidsReq.reqId

/-- The elements of the PDU of a reply. The request-id is the first of them. -/
def replyPdu (oidsReq : OidReq) (varbinds : List SnmpElem) : List SnmpElem :=
  [replyId oidsReq, snmpInteger .integer (intToUint64 oidsReq.err),
    snmpInteger .integer (intToUint64 oidsReq.errIdx), .sequence varbinds]

/-- The elements of a reply, with the PDU at the end. -/
def replyElems (oidsReq : OidReq) (varbinds : List SnmpElem) : List SnmpElem :=
  [snmpInteger .integer (intToUint64 oidsReq.version),
    snmpOctetString (replyCommunity oidsReq), .pdu 0xa2 (replyPdu oidsReq varbinds)]

/-- There is room in the reply for its PDU: the totals add up, inside the PDU
and around it, and the loop of the outer sequence gets as far as the PDU. -/
structure ReplyHasRoom (oidsReq : OidReq) (varbinds : List SnmpElem) : Prop where
  pdu : AddsUp 2 (replyPdu oidsReq varbinds)
  reply : AddsUp 2 (replyElems oidsReq varbinds)
  total : 2 + ((replyElems oidsReq varbinds).flatMap SnmpElem.encoding).length < 257

/-- The bytes in front of the request-id: the header of the reply, the version,
the community string, and the header of the PDU. -/
def replyFront (oidsReq : OidReq) (length pduLength : UInt8) : Bytes :=
  0x30 :: length :: (snmpInteger .integer (intToUint64 oidsReq.version)).encoding ++
    (snmpOctetString (replyCommunity oidsReq)).encoding ++ [0xa2, pduLength]

theorem genReply_eq (sd : SnmpData) (readings : SnmpReadings) (oidsReq : OidReq) :
    genReply sd readings oidsReq =
      (oidsReq.oids.mapM (replyVarbind sd readings)).bind fun varbinds =>
        (SnmpElem.sequence (replyElems oidsReq varbinds)).getPayload := rfl

/-- **Where the request-id is.** A reply with room for its PDU has the encoding
of the request-id behind its front. -/
theorem genReply_bytes {sd : SnmpData} {readings : SnmpReadings} {oidsReq : OidReq}
    {varbinds : List SnmpElem}
    (h : oidsReq.oids.mapM (replyVarbind sd readings) = some varbinds)
    (h_room : ReplyHasRoom oidsReq varbinds) :
    ∃ pl length pduLength tail, genReply sd readings oidsReq = some pl ∧
      pl.first.take pl.second.toNat =
        replyFront oidsReq length pduLength ++ (replyId oidsReq).encoding ++ tail := by
  obtain ⟨pl, fit, h_pl, ⟨h_longest, ⟨length, h_bytes, -, -⟩, -⟩, -⟩ :=
    sequencePayload_of_addsUp h_room.reply
  obtain ⟨pduPl, pduFit, h_pdu, h_pduLongest, ⟨pduLength, h_pduBytes, -, -⟩, -⟩ :=
    pduPayload_of_addsUp 0xa2 h_room.pdu
  -- with this total no element of the reply is left out
  obtain rfl : fit = replyElems oidsReq varbinds :=
    (h_longest.longest _ List.prefix_rfl h_room.total).eq_of_length_le
      h_longest.starts.length_le |>.symm
  -- and the request-id is the first one of the PDU, whatever becomes of the others
  have h_id : (replyId oidsReq).encoding.length ≤ 10 := by
    have h_fits : (replyId oidsReq).Fits := snmpInteger_fits _ _
    rw [length_encoding h_fits, replyId, size_snmpInteger]
    exact integerSize_le _
  obtain ⟨pduFit', rfl, -⟩ := h_pduLongest.of_cons (by omega)
  have h_enc : (SnmpElem.pdu 0xa2 (replyPdu oidsReq varbinds)).encoding =
      0xa2 :: pduLength :: (replyId oidsReq :: pduFit').flatMap SnmpElem.encoding := by
    rw [SnmpElem.encoding, h_pdu]
    exact h_pduBytes
  refine ⟨pl, length, pduLength, pduFit'.flatMap SnmpElem.encoding, ?_, ?_⟩
  · rw [genReply_eq, h, Option.bind_some, h_pl]
  · rw [h_bytes, replyElems, replyFront, List.flatMap_cons, List.flatMap_cons, List.flatMap_cons,
      List.flatMap_nil, h_enc, List.flatMap_cons]
    simp only [List.append_nil, List.append_assoc, List.cons_append, List.nil_append]

/-- The octets of an integer below `2 ^ 32`: the type, the length and four
octets. That is so for small numbers too, which could do with fewer. -/
theorem getPayload_snmpInteger {v : UInt64} (h : v.toNat < 2 ^ 32) :
    ∃ content, (snmpInteger .integer v).getPayload = some ⟨0x02 :: 4 :: content, 6⟩ ∧
      content.length = 4 ∧ BigEndian.ofBytes content = v.toNat := by
  have h_le : v ≤ 0xffffffff := by
    rw [UInt64.le_iff_toNat_le]
    show v.toNat ≤ 0xffffffff
    omega
  have h_payload : integerPayload .integer v 6 = some ⟨0x02 :: 4 ::
      [(v >>> 24).toUInt8, (v >>> 16).toUInt8, (v >>> 8).toUInt8, (v >>> 0).toUInt8], 6⟩ := rfl
  refine ⟨[(v >>> 24).toUInt8, (v >>> 16).toUInt8, (v >>> 8).toUInt8, (v >>> 0).toUInt8], ?_, rfl,
    ?_⟩
  · rw [snmpInteger, if_pos h_le, SnmpElem.getPayload]
    exact h_payload
  · -- each octet is eight bits of the value, from the highest down
    have h_byte : ∀ s : UInt64, s.toNat < 64 →
        (v >>> s).toUInt8.toNat = v.toNat / 2 ^ s.toNat % 256 := by
      intro s h_s
      rw [UInt64.toNat_toUInt8, UInt64.toNat_shiftRight, Nat.mod_eq_of_lt h_s,
        Nat.shiftRight_eq_div_pow]
    have h₁ := h_byte 24 (by decide)
    have h₂ := h_byte 16 (by decide)
    have h₃ := h_byte 8 (by decide)
    have h₄ := h_byte 0 (by decide)
    simp only [UInt64.reduceToNat] at h₁ h₂ h₃ h₄
    simp only [BigEndian.ofBytes, List.length_cons, List.length_nil, h₁, h₂, h₃, h₄]
    omega

/-- Whatever packet is answered: when the content of the request-id it was read
from last has one to four octets, the reply has it in four, and they denote the
same integer exactly when there were four already or the integer is not
negative. A reply with room for its PDU has these octets behind its front. -/
theorem requestId_iff {sd : SnmpData} {packet : Bytes} {oidsReq : OidReq}
    (h : acceptPacket sd packet = some oidsReq) {octets : Bytes}
    (h_id : (requestIds (tracedPacket sd packet).events).getLast? = some octets)
    (h_len : 1 ≤ octets.length ∧ octets.length ≤ 4) :
    ∃ content, (replyId oidsReq).getPayload = some ⟨0x02 :: 4 :: content, 6⟩ ∧
      (∀ readings varbinds, oidsReq.oids.mapM (replyVarbind sd readings) = some varbinds →
        ReplyHasRoom oidsReq varbinds → ∃ pl length pduLength tail,
          genReply sd readings oidsReq = some pl ∧ pl.first.take pl.second.toNat =
            replyFront oidsReq length pduLength ++ 0x02 :: 4 :: content ++ tail) ∧
      (BigEndian.signed content = BigEndian.signed octets ↔
        octets.length = 4 ∨ octets.headD 0 < 128) := by
  have h_reqId : oidsReq.reqId = getInteger octets := by
    rw [reqId_eq h, idAfter, h_id]
    rfl
  -- the octets are read as a number without a sign, and it is written into four octets
  have h_value : oidsReq.reqId.toNat = BigEndian.ofBytes octets := by
    rw [h_reqId, getInteger_toNat (by omega)]
  have h_lt := BigEndian.ofBytes_lt octets
  have h_pow : 2 ^ (8 * octets.length) ≤ 2 ^ 32 := Nat.pow_le_pow_right (by norm_num) (by omega)
  obtain ⟨content, h_payload, h_four, h_content⟩ :=
    getPayload_snmpInteger (v := oidsReq.reqId) (by omega)
  rw [h_value] at h_content
  have h_enc : (replyId oidsReq).encoding = 0x02 :: 4 :: content := by
    rw [SnmpElem.encoding, replyId, h_payload]
    exact List.take_of_length_le (by simp [h_four])
  refine ⟨content, h_payload, fun readings varbinds h_varbinds h_room => ?_, ?_⟩
  · rw [← h_enc]
    exact genReply_bytes h_varbinds h_room
  have h_ne : content ≠ [] := List.ne_nil_of_length_pos (by omega)
  have h_ne' : octets ≠ [] := List.ne_nil_of_length_pos (by omega)
  by_cases h_all : octets.length = 4
  · -- four octets with the same value are the same integer
    have h_eq : BigEndian.signed content = BigEndian.signed octets := by
      rw [BigEndian.signed_eq h_ne, BigEndian.signed_eq h_ne', h_content, h_four, h_all]
    exact iff_of_true h_eq (.inl h_all)
  · -- fewer are zero-extended, so nothing negative comes out
    have h_small : 2 ^ (8 * octets.length) ≤ 2 ^ 24 :=
      Nat.pow_le_pow_right (by norm_num) (by omega)
    have h_signed : BigEndian.signed content = BigEndian.ofBytes octets := by
      rw [BigEndian.signed_eq h_ne, h_content, h_four, if_neg (by omega)]
    rw [h_signed, or_iff_right h_all]
    by_cases h_head : octets.headD 0 < 128
    · exact iff_of_true (BigEndian.signed_of_lt h_head).symm h_head
    · refine iff_of_false (fun h_eq => ?_) h_head
      have h_neg := BigEndian.signed_neg (UInt8.not_lt.mp h_head)
      omega

/-- A GetRequest without varbinds, with a request-id of one octet. -/
def idGet (octet : UInt8) : Bytes :=
  [0x30, 20, 0x02, 1, 1, 0x04, 2, 112, 117, 0xa0, 11, 0x02, 1, octet, 0x02, 1, 0, 0x02, 1, 0,
    0x30, 0]

/-- Its request. -/
def idRequest (id : UInt64) : OidReq := { reqId := id, version := 1, community := [112, 117] }

/-- The totals of its reply. -/
theorem replyHasRoom_idRequest : ReplyHasRoom (idRequest 5) [] where
  pdu := by
    refine ⟨snmpInteger_fits _ _, fun _ => ⟨by decide, by decide, ?_⟩⟩
    refine ⟨snmpInteger_fits _ _, fun _ => ⟨by decide, by decide, ?_⟩⟩
    refine ⟨snmpInteger_fits _ _, fun _ => ⟨by decide, by decide, ?_⟩⟩
    exact ⟨trivial, fun _ => ⟨by decide, by decide, trivial⟩⟩
  reply := by
    refine ⟨snmpInteger_fits _ _, fun _ => ⟨by decide, by decide, ?_⟩⟩
    refine ⟨(snmpOctetString_fits _).mpr (by decide), fun _ => ⟨by decide, by decide, ?_⟩⟩
    exact ⟨(pdu_fits _ _ _ _).mpr trivial, fun _ => ⟨by decide, by decide, trivial⟩⟩
  total := by decide +kernel

/-- The request-id 5, and the reply it comes back in. -/
theorem requestId_five :
    ∃ content, (replyId (idRequest 5)).getPayload = some ⟨0x02 :: 4 :: content, 6⟩ ∧
      (∃ pl length pduLength tail,
        genReply (initSnmp sampleDate) sampleReadings (idRequest 5) = some pl ∧
          pl.first.take pl.second.toNat =
            replyFront (idRequest 5) length pduLength ++ 0x02 :: 4 :: content ++ tail) ∧
      BigEndian.signed content = BigEndian.signed [5] := by
  obtain ⟨content, h_payload, h_reply, h_iff⟩ :=
    @requestId_iff (initSnmp sampleDate) (idGet 5) (idRequest 5) (by decide +kernel) [5]
      (by decide +kernel) (by decide)
  exact ⟨content, h_payload, h_reply sampleReadings [] rfl replyHasRoom_idRequest,
    h_iff.mpr (.inr (by decide))⟩

/-- The request-id −1 in one octet comes back as 255. -/
theorem requestId_fails :
    acceptPacket (initSnmp sampleDate) (idGet 0xff) = some (idRequest 255) ∧
      (requestIds (tracedPacket (initSnmp sampleDate) (idGet 0xff)).events).getLast? =
        some [0xff] ∧
      (replyId (idRequest 255)).getPayload = some ⟨[0x02, 4, 0, 0, 0, 0xff], 6⟩ ∧
      BigEndian.signed [0xff] = -1 ∧ BigEndian.signed [0, 0, 0, 0xff] = 255 :=
  ⟨by decide +kernel, by decide +kernel, by decide +kernel, by decide, by decide⟩

end IscsiTarget
