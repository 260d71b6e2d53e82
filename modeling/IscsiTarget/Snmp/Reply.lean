import IscsiTarget.Snmp.Oid
import IscsiTarget.Snmp.Payload
import IscsiTarget.Snmp.Tree

/-!
# An SNMP reply and its buffers

What `process_BER` leaves in a request is bounded by the lengths of the packet: the community
string has at most 255 bytes, and an OID is the text of sub-identifiers or, for a GetNext, an
OID of the tree (`Decoded`). From that, `replyInside_iff` says exactly which requests
`gen_reply` answers without leaving one of its buffers (`ReplyFits`).

Three things go wrong. A sub-identifier from `2 ^ 31` on is printed as a short negative number
and encoded as a 64-bit one, so that the encoding does not fit the buffer of the text. A
community string of 254 or 255 bytes makes the eight-bit size of its element wrap around. So
does an OID with an encoding that long, when the reply gets as far as its varbind.
-/

namespace IscsiTarget

open SnmpElem (Fits size seqFits seqSize getPayload)
open SnmpDataType SnmpData

/-! ### What a request can hold -/

/-- What every request that was read has: a community string no longer than a
length byte says, and OIDs that are the text of sub-identifiers or come out of
the tree. -/
structure Decoded (sd : SnmpData) (oidsReq : OidReq) : Prop where
  community_lt : oidsReq.community.length < 256
  oids_eq : ∀ oid ∈ oidsReq.oids,
    (∃ start ids, oid = oidText start ids) ∨ ∃ n, InTree n sd.data ∧ oid = n.getOid

theorem Decoded.pushOid {sd : SnmpData} {isGetnext : Bool} {block oid : Bytes}
    {oidsReq oidsReq' : OidReq} (h_req : Decoded sd oidsReq) (h_oid : getOID block = some oid)
    (h : pushOid sd isGetnext oid oidsReq = .ok oidsReq') : Decoded sd oidsReq' := by
  unfold IscsiTarget.pushOid at h
  split at h
  · split at h
    · cases h
    · next oidNext h_next =>
      split at h
      · cases h
        exact ⟨h_req.community_lt, h_req.oids_eq⟩
      · next h_ne =>
        cases h
        refine ⟨h_req.community_lt, fun o h_o => ?_⟩
        rcases List.mem_append.mp h_o with h_o | h_o
        · exact h_req.oids_eq o h_o
        · rw [List.mem_singleton.mp h_o]
          -- an OID behind the one asked for, which is in the tree
          exact .inr ((findNextOid_inTree h_next).resolve_left h_ne)
  · cases h
    refine ⟨h_req.community_lt, fun o h_o => ?_⟩
    rcases List.mem_append.mp h_o with h_o | h_o
    · exact h_req.oids_eq o h_o
    · rw [List.mem_singleton.mp h_o]
      -- the OID itself, as `get_OID` has printed it
      exact .inl (getOID_eq h_oid)

mutual

theorem processBER_decoded {sd : SnmpData} {isGetnext : Bool} {isTop : ℤ}
    {firstInteger firstOctetStr : Bool} {block : Bytes} {oidsReq oidsReq' : OidReq} {ok : Bool}
    (h_req : Decoded sd oidsReq)
    (h : processBER sd isGetnext isTop firstInteger firstOctetStr block oidsReq =
      .ok (ok, oidsReq')) :
    Decoded sd oidsReq' := by
  -- recursion on the length of the block; what has been read so far is decoded, whatever comes next
  rw [processBER] at h
  split at h
  · cases h
    exact h_req
  split at h
  · cases h
  next type temp rest h_element =>
  have h_len := getElement_length h_element
  split at h
  · -- integer
    refine processBER_decoded ?_ h
    split
    · exact ⟨h_req.community_lt, h_req.oids_eq⟩
    · exact h_req
  split at h
  · -- octet string
    refine processBER_decoded ?_ h
    split
    · exact ⟨h_len.2, h_req.oids_eq⟩
    · exact h_req
  split at h
  · -- null
    exact processBER_decoded h_req h
  split at h
  · -- object identifier
    split at h
    · cases h
      exact h_req
    next oidOut h_oid =>
    split at h
    · cases h
    next req h_push => exact processBER_decoded (h_req.pushOid h_oid h_push) h
  split at h
  · -- sequence
    split at h
    · cases h
    · next req h_inner =>
      cases h
      exact processBER_decoded h_req h_inner
    · next req h_inner => exact processBER_decoded (processBER_decoded h_req h_inner) h
  split at h
  · -- PDU
    split at h
    · cases h
    · next req h_inner =>
      cases h
      exact processPDU_decoded h_req h_inner
    · next req h_inner => exact processBER_decoded (processPDU_decoded h_req h_inner) h
  · cases h
    exact h_req
termination_by block.length
decreasing_by all_goals omega

theorem processPDU_decoded {sd : SnmpData} {isGetnext : Bool} {block : Bytes}
    {oidsReq oidsReq' : OidReq} {ok : Bool} (h_req : Decoded sd oidsReq)
    (h : processPDU sd isGetnext block oidsReq = .ok (ok, oidsReq')) : Decoded sd oidsReq' := by
  rw [processPDU] at h
  split at h
  · cases h
  next type length block₁ h_tl =>
  have h_len₁ := getTypeLength_length h_tl
  split at h
  · cases h
    exact h_req
  split at h
  · cases h
  next idBytes block₂ h_id =>
  have h_len₂ := getBytes_length h_id
  dsimp only at h
  split at h
  · cases h
  · cases h
    -- the list is refused, and only the request id has been taken
    exact ⟨h_req.community_lt, h_req.oids_eq⟩
  · next temp h_list =>
    have h_len₃ := varbindList_length h_list
    refine varbindLoop_decoded ?_ h
    exact ⟨h_req.community_lt, h_req.oids_eq⟩
termination_by block.length
decreasing_by all_goals omega

theorem varbindLoop_decoded {sd : SnmpData} {isGetnext : Bool} {temp : Bytes}
    {oidsReq oidsReq' : OidReq} {ok : Bool} (h_req : Decoded sd oidsReq)
    (h : varbindLoop sd isGetnext temp oidsReq = .ok (ok, oidsReq')) : Decoded sd oidsReq' := by
  rw [varbindLoop] at h
  split at h
  · cases h
    exact h_req
  split at h
  · cases h
  next seqType seqData rest h_element =>
  -- what a varbind adds is decoded, and the loop goes on with fewer bytes
  have h_len := getElement_length h_element
  split at h
  · split at h
    · cases h
    · next ok' req h_inner => exact varbindLoop_decoded (processBER_decoded h_req h_inner) h
  · cases h
    exact h_req
termination_by temp.length
decreasing_by all_goals omega

end

/-- The request of every packet that is answered. -/
theorem decoded_of_acceptPacket {sd : SnmpData} {packet : Bytes} {oidsReq : OidReq}
    (h : acceptPacket sd packet = some oidsReq) : Decoded sd oidsReq := by
  unfold acceptPacket at h
  split at h
  · next req h_ber =>
    cases h
    exact processBER_decoded ⟨by decide, fun oid h_oid => absurd h_oid (by simp)⟩ h_ber
  · cases h

/-! ### What the tree puts into a reply -/

/-- Data whose element always fits. Numbers and counters do; a text has to be
shorter than 254 bytes. -/
def SnmpKind.Short : SnmpKind → Prop
  | .plain => True
  | .staticText content => content.length < 254
  | .staticInt _ _ => True
  | .stats _ _ => True

instance : DecidablePred SnmpKind.Short
  | .plain => inferInstanceAs (Decidable True)
  | .staticText content => inferInstanceAs (Decidable (content.length < 254))
  | .staticInt _ _ => inferInstanceAs (Decidable True)
  | .stats _ _ => inferInstanceAs (Decidable True)

/-- The size of a string or an OID of `n` bytes wraps around to less than its
header. -/
def Wraps (n : ℕ) : Prop := n % 256 = 254 ∨ n % 256 = 255

instance : DecidablePred Wraps := fun _ => inferInstanceAs (Decidable (_ ∨ _))

theorem toNat_len (n : ℕ) : (UInt8.ofNat (n + 2)).toNat = (n + 2) % 256 := UInt8.toNat_ofNat'

theorem two_le_len_iff (n : ℕ) : 2 ≤ (UInt8.ofNat (n + 2)).toNat ↔ ¬Wraps n := by
  rw [toNat_len, Wraps]
  omega

/-- How many bytes an integer takes. -/
def integerSize (v : UInt64) : ℕ := if v ≤ 0xffffffff then 6 else 10

theorem integerSize_le (v : UInt64) : integerSize v ≤ 10 := by
  unfold integerSize
  split <;> omega

theorem size_snmpInteger (type : SnmpIntegerType) (v : UInt64) :
    (snmpInteger type v).size = integerSize v := by
  unfold snmpInteger integerSize
  split <;> rw [size] <;> rfl

theorem snmpInteger_fits (type : SnmpIntegerType) (v : UInt64) : (snmpInteger type v).Fits := by
  unfold snmpInteger
  split <;> rw [Fits] <;> decide

theorem snmpOctetString_fits (v : Bytes) : (snmpOctetString v).Fits ↔ ¬Wraps v.length := by
  rw [snmpOctetString, Fits]
  exact two_le_len_iff _

theorem getData_fits {readings : SnmpReadings} {kind : SnmpKind} (h : kind.Short) {e : SnmpElem}
    (h_e : kind.getData readings = some e) : e.Fits := by
  -- a text is short, and a number always has room
  cases kind with
  | plain => cases h_e
  | staticText content =>
    cases h_e
    refine (snmpOctetString_fits content).mpr fun h_wraps => ?_
    have h_lt : content.length < 254 := h
    unfold Wraps at h_wraps
    omega
  | staticInt type content =>
    cases h_e
    exact snmpInteger_fits type content
  | stats type source =>
    cases h_e
    exact snmpInteger_fits type _

/-- Nothing `init_snmp` registers is long, and its OIDs are encoded inside the
buffers of their texts. -/
theorem initSnmp_fits (date : BuildDate) :
    Holds (fun oid kind => oidLength oid ≤ oid.length ∧ kind.Short) (initSnmp date).data := by
  have h_date : (SnmpKind.staticText date.text).Short := by
    show date.text.length < 254
    rw [date.length_eq]
    norm_num
  refine initSnmp_holds date ?_
  -- the registrations are a fixed list, so this is a matter of looking at each
  have h_oids : ∀ r ∈ initRegistrations date, ∀ oid ∈ curOids [] (split (ascii r.1) (ascii ".")),
      oidLength oid ≤ oid.length := by
    simp only [initRegistrations, List.forall_mem_cons]
    decide +kernel
  have h_kinds : ∀ r ∈ initRegistrations date, r.2.Short := by
    simp only [initRegistrations, List.forall_mem_cons, h_date]
    decide +kernel
  exact fun r h_r oid h_oid =>
    ⟨⟨h_oids r h_r oid h_oid, h_kinds r h_r⟩, h_oids r h_r oid h_oid, trivial⟩

theorem replyValue_fits (date : BuildDate) (readings : SnmpReadings) (oid : Bytes) :
    (replyValue (initSnmp date) readings oid).Fits := by
  have h_found : ∀ {oid e}, (initSnmp date).findByOid readings oid = some (some e) → e.Fits := by
    intro oid e h
    obtain ⟨n, h_n, h_e⟩ := findByOid_inTree h
    exact getData_fits (initSnmp_fits date n h_n).2 h_e.symm
  -- whatever is found fits, and so does the null of what is not
  unfold replyValue
  dsimp only
  split
  · next h =>
    split at h
    · exact h_found h
    · split at h
      · exact h_found h
      · exact h_found h
  · exact trivial

/-! ### The reply -/

/-- The size of the varbind of an OID. Of the OID and the value only what still
has room is put into it. -/
def varbindSize (sd : SnmpData) (readings : SnmpReadings) (oid : Bytes) : ℕ :=
  let o := 2 + (oidLength oid + 2) % 256
  if o ≥ 257 then 2
  else
    let valueSize := (replyValue sd readings oid).size
    if o % 256 + valueSize ≥ 257 then o % 256 else (o % 256 + valueSize) % 256

/-- The OIDs a varbind list that is filled up to `o` can take: none of those the
list gets to has an encoding whose size wraps around. -/
def varbindsFit (sd : SnmpData) (readings : SnmpReadings) : ℕ → List Bytes → Prop
  | _, [] => True
  | o, oid :: oids =>
    ¬Wraps (oidLength oid) ∧
      (o + varbindSize sd readings oid < 257 →
        varbindsFit sd readings ((o + varbindSize sd readings oid) % 256) oids)

/-- The requests that are answered inside the buffers. -/
structure ReplyFits (sd : SnmpData) (readings : SnmpReadings) (oidsReq : OidReq) : Prop where
  /-- No OID has sub-identifiers that take more bytes than their text. -/
  subIds : ∀ start ids, oidText start ids ∈ oidsReq.oids → SubIdsFit start ids
  /-- The size of the community string does not wrap around. -/
  community : oidsReq.community.length ≠ 254 ∧ oidsReq.community.length ≠ 255
  /-- When the community string leaves room for the PDU, no OID of it wraps
  around. -/
  varbinds : integerSize (intToUint64 oidsReq.version) + (replyCommunity oidsReq).length < 253 →
    varbindsFit sd readings 2 oidsReq.oids

theorem seqSize_varbind (v : Bytes) (n : ℕ) (value : SnmpElem) :
    (SnmpElem.sequence [.oid v (UInt8.ofNat (n + 2)), value]).size =
      if 2 + (n + 2) % 256 ≥ 257 then 2
      else
        if (2 + (n + 2) % 256) % 256 + value.size ≥ 257 then (2 + (n + 2) % 256) % 256
        else ((2 + (n + 2) % 256) % 256 + value.size) % 256 := by
  rw [size, seqSize, size, toNat_len]
  split
  · rfl
  · rw [seqSize]
    split
    · rfl
    · rw [seqSize]

theorem seqFits_varbind {v : Bytes} {n : ℕ} {value : SnmpElem} (h_value : value.Fits) :
    (SnmpElem.sequence [.oid v (UInt8.ofNat (n + 2)), value]).Fits ↔ ¬Wraps n := by
  rw [Fits, seqFits, Fits, two_le_len_iff, seqFits, seqFits]
  exact and_iff_left fun _ => ⟨h_value, fun _ => trivial⟩

/-- The varbinds are built, when all the OIDs have room for their encoding. By
induction on the OIDs. -/
theorem mapM_replyVarbind {sd : SnmpData} {readings : SnmpReadings}
    (h_value : ∀ oid, (replyValue sd readings oid).Fits) {oids : List Bytes}
    (h : ∀ oid ∈ oids, oidLength oid ≤ oid.length) :
    ∃ varbinds, oids.mapM (replyVarbind sd readings) = some varbinds ∧
      ∀ o, seqFits o varbinds ↔ varbindsFit sd readings o oids := by
  -- on the OIDs, each one with its value in a sequence of two
  induction oids with
  | nil => exact ⟨[], rfl, fun o => by rw [seqFits, varbindsFit]⟩
  | cons oid oids ih =>
    obtain ⟨varbinds, h_varbinds, h_fits⟩ := ih fun o h_o => h o (List.mem_cons_of_mem oid h_o)
    obtain ⟨v, h_oid⟩ := (snmpOid_spec oid).1 (h oid List.mem_cons_self)
    refine ⟨.sequence [.oid v (UInt8.ofNat (oidLength oid + 2)), replyValue sd readings oid] ::
      varbinds, ?_, fun o => ?_⟩
    · rw [List.mapM_cons, replyVarbind, h_oid, h_varbinds]
      rfl
    · rw [seqFits, varbindsFit, seqFits_varbind (h_value oid), seqSize_varbind, h_fits]
      rfl

/-- They are not, when one has not: its constructor goes over the end of its
buffer. -/
theorem mapM_replyVarbind_none {sd : SnmpData} {readings : SnmpReadings} {oids : List Bytes}
    {oid : Bytes} (h_mem : oid ∈ oids) (h : oid.length < oidLength oid) :
    oids.mapM (replyVarbind sd readings) = none := by
  -- on the OIDs, up to the one without room
  induction oids with
  | nil => exact absurd h_mem (by simp)
  | cons o oids ih =>
    rw [List.mapM_cons]
    rcases List.mem_cons.mp h_mem with rfl | h_mem
    · rw [replyVarbind, (snmpOid_spec oid).2 h]
      rfl
    · rw [ih h_mem]
      cases replyVarbind sd readings o <;> rfl

/-- An element is written inside its buffers exactly when it fits. -/
theorem isSome_getPayload (e : SnmpElem) : e.getPayload.isSome ↔ e.Fits := by
  obtain ⟨h_some, h_none⟩ := getPayload_spec e
  by_cases h : e.Fits
  · obtain ⟨pl, h_pl, -⟩ := h_some h
    rw [h_pl]
    exact iff_of_true rfl h
  · rw [h_none h]
    exact iff_of_false Bool.false_ne_true h

/-- An integer in a sequence that has room for it. -/
theorem seqFits_snmpInteger {o : ℕ} {v : UInt64} {elems : List SnmpElem} (h : o < 200) :
    seqFits o (snmpInteger .integer v :: elems) ↔ seqFits (o + integerSize v) elems := by
  have h_size := integerSize_le v
  rw [seqFits, size_snmpInteger, Nat.mod_eq_of_lt (by omega),
    and_iff_right (snmpInteger_fits _ v)]
  exact forall_prop_of_true (by omega)

/-- The PDU of the reply: its three integers always have room. -/
theorem pdu_fits (id err errIdx : UInt64) (varbinds : List SnmpElem) :
    (SnmpElem.pdu 0xa2 [snmpInteger .integer id, snmpInteger .integer err,
      snmpInteger .integer errIdx, .sequence varbinds]).Fits ↔ seqFits 2 varbinds := by
  have h_id := integerSize_le id
  have h_err := integerSize_le err
  rw [Fits, seqFits_snmpInteger (by omega), seqFits_snmpInteger (by omega),
    seqFits_snmpInteger (by omega), seqFits, seqFits, Fits]
  exact and_iff_left fun _ => trivial

/-- The reply, when the varbinds are built. It fits when the community string
does, and the PDU as well if there is room for it. -/
theorem genReply_of_varbinds {sd : SnmpData} {readings : SnmpReadings} {oidsReq : OidReq}
    {varbinds : List SnmpElem}
    (h : oidsReq.oids.mapM (replyVarbind sd readings) = some varbinds)
    (h_community : (replyCommunity oidsReq).length < 256) :
    (genReply sd readings oidsReq).isSome ↔
      ¬Wraps (replyCommunity oidsReq).length ∧
        (integerSize (intToUint64 oidsReq.version) + (replyCommunity oidsReq).length < 253 →
          seqFits 2 varbinds) := by
  have h_version := integerSize_le (intToUint64 oidsReq.version)
  have h_size : (snmpOctetString (replyCommunity oidsReq)).size =
      ((replyCommunity oidsReq).length + 2) % 256 := by
    rw [snmpOctetString, size, toNat_len]
  unfold genReply
  rw [h]
  dsimp only [bind, Option.bind]
  rw [isSome_getPayload, Fits, seqFits_snmpInteger (by omega), seqFits, snmpOctetString_fits,
    h_size]
  refine and_congr_right fun h_wraps => ?_
  rw [seqFits, pdu_fits, seqFits, and_iff_left fun _ => trivial]
  unfold Wraps at h_wraps
  -- the version and the community come first; only when they leave room it depends on the PDU
  have h_iff : 2 + integerSize (intToUint64 oidsReq.version) +
      ((replyCommunity oidsReq).length + 2) % 256 < 257 ↔
      integerSize (intToUint64 oidsReq.version) + (replyCommunity oidsReq).length < 253 := by
    omega
  rw [h_iff]

theorem replyCommunity_length {oidsReq : OidReq} (h : oidsReq.community.length < 256) :
    (replyCommunity oidsReq).length < 256 ∧
      (Wraps (replyCommunity oidsReq).length ↔
        oidsReq.community.length = 254 ∨ oidsReq.community.length = 255) := by
  unfold replyCommunity Wraps
  split
  · next h_nil =>
    rw [h_nil]
    decide
  · exact ⟨h, by omega⟩

/-- Every packet the target answers is answered inside the buffers, if and only
if its request fits. What can go wrong is the text of a sub-identifier that is
shorter than its encoding, and the eight-bit size of an element that is too
long, the community string or an object identifier. -/
theorem replyInside_iff (date : BuildDate) (readings : SnmpReadings) (packet : Bytes)
    (oidsReq : OidReq) (h_accept : acceptPacket (initSnmp date) packet = some oidsReq) :
    (genReply (initSnmp date) readings oidsReq).isSome ↔
      ReplyFits (initSnmp date) readings oidsReq := by
  obtain ⟨h_community, h_oids⟩ := decoded_of_acceptPacket h_accept
  obtain ⟨h_reply, h_wraps⟩ := replyCommunity_length h_community
  by_cases h_room : ∀ oid ∈ oidsReq.oids, oidLength oid ≤ oid.length
  · -- all the OIDs are encoded, so the varbinds are there
    obtain ⟨varbinds, h_mapM, h_fits⟩ :=
      mapM_replyVarbind (replyValue_fits date readings) h_room
    rw [genReply_of_varbinds h_mapM h_reply, h_wraps, h_fits]
    constructor
    · rintro ⟨h_not, h_varbinds⟩
      refine ⟨fun start ids h_mem => ?_, not_or.mp h_not, h_varbinds⟩
      exact (oidLength_oidText start ids).mp (h_room _ h_mem)
    · intro h_fit
      exact ⟨not_or.mpr h_fit.community, h_fit.varbinds⟩
  · -- one of them is not: it is the text of sub-identifiers that do not fit
    push Not at h_room
    obtain ⟨oid, h_mem, h_lt⟩ := h_room
    have h_none : genReply (initSnmp date) readings oidsReq = none := by
      unfold genReply
      rw [mapM_replyVarbind_none h_mem h_lt]
      rfl
    rw [h_none]
    refine iff_of_false Bool.false_ne_true fun h_fit => ?_
    rcases h_oids oid h_mem with ⟨start, ids, rfl⟩ | ⟨n, h_n, rfl⟩
    · exact absurd ((oidLength_oidText start ids).mpr (h_fit.subIds start ids h_mem)) (by omega)
    · exact absurd (initSnmp_fits date n h_n).1 (by omega)

/-! ### Two packets -/

/-- A build date and what the counters hold, for the packets below. -/
def sampleDate : BuildDate := ⟨ascii "Jan  1 2026", by decide⟩

def sampleReadings : SnmpReadings := fun _ => 7

/-- A GetRequest with the community string `public` for one OID of six bytes. -/
def sampleGet (oid : List.Vector UInt8 6) : Bytes :=
  [0x30, 36, 0x02, 1, 1, 0x04, 6] ++ ascii "public" ++
    [0xa0, 23, 0x02, 1, 5, 0x02, 1, 0, 0x02, 1, 0, 0x30, 12, 0x30, 10, 0x06, 6] ++ oid.toList ++
    [0x05, 0]

/-- The request for `1.3.6.1.2.1.1`. -/
theorem replyInside_system :
    (genReply (initSnmp sampleDate) sampleReadings
      { oids := [ascii "1.3.6.1.2.1.1"], reqId := 5, version := 1,
        community := ascii "public" }).isSome ↔
    ReplyFits (initSnmp sampleDate) sampleReadings
      { oids := [ascii "1.3.6.1.2.1.1"], reqId := 5, version := 1,
        community := ascii "public" } :=
  replyInside_iff sampleDate sampleReadings (sampleGet ⟨[0x2b, 6, 1, 2, 1, 1], rfl⟩) _
    (by decide +kernel)

/-- The request of the packet below. -/
def sampleNegative : OidReq :=
  { oids := [ascii "1.3.-5"], reqId := 5, version := 1, community := ascii "public" }

/-- The sub-identifier `2 ^ 32 - 5` is printed as `-5`, and the eleven bytes of
the encoding do not fit the six of `1.3.-5`. -/
theorem replyInside_fails :
    acceptPacket (initSnmp sampleDate) (sampleGet ⟨[0x2b, 0x8f, 0xff, 0xff, 0xff, 0x7b], rfl⟩) =
      some sampleNegative ∧
    genReply (initSnmp sampleDate) sampleReadings sampleNegative = none :=
  ⟨by decide +kernel, by decide +kernel⟩

end IscsiTarget
