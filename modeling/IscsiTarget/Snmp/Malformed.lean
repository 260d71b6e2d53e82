import IscsiTarget.Snmp.Parse
import IscsiTarget.Snmp.Reply

/-!
# Malformed packets

What is malformed is a matter of the encoding (`SnmpValue.Malformed`): a type the parser does not
know, another type than the one that has to stand in a place, an OID the last octet of which
announces one more. The trace has every value the parser comes to, so that nothing has to be
known about the code to say which of them are malformed.

The code falls short of this in two ways. `get_OID` does not look at the last octet, but at what
has been put together of the arc that is not complete, and takes the OID when that is zero
(`SnmpValue.Overlooked`). And while `process_BER` hands the `false` of a nested call up to its
caller, and so does `process_PDU`, the latter does not for the call it makes for each varbind:
what is refused inside one is lost. `rejectedWhole_iff` says when neither matters.
-/

namespace IscsiTarget

/-! ### Malformed values -/

/-- The octets are those of an OID that does not terminate: the last one has the
bit that announces another. -/
def Unterminated (octets : Bytes) : Prop := octets.getLast?.any (128 ≤ ·) = true

instance : DecidablePred Unterminated := fun octets =>
  inferInstanceAs (Decidable (octets.getLast?.any (128 ≤ ·) = true))

/-- What there is of the arc in which an OID breaks off, in 32 bits. Behind an
arc that is complete there is nothing of the next one. -/
def brokenArc (octets : Bytes) : UInt32 :=
  octets.foldl (fun (v : UInt32) (octet : UInt8) =>
    if octet < 128 then 0 else v <<< 7 ||| (octet &&& 127).toUInt32) 0

namespace SnmpValue

/-- A malformed value: an element of an unknown type, an OID that does not
terminate, or another type than the one that has to stand there (a varbind that
is not a sequence, for one). -/
def Malformed : SnmpValue → Prop
  | .element type octets => type ∉ berTypes ∨ type = 0x06 ∧ Unterminated octets
  | .field expected type => type ≠ expected

instance : DecidablePred Malformed
  | .element type octets =>
    inferInstanceAs (Decidable (type ∉ berTypes ∨ type = 0x06 ∧ Unterminated octets))
  | .field expected type => inferInstanceAs (Decidable (type ≠ expected))

/-- A malformed value that is taken for a good one: an OID that breaks off while
there is nothing of its last arc but zeros. -/
def Overlooked : SnmpValue → Prop
  | .element type octets => type = 0x06 ∧ Unterminated octets ∧ brokenArc octets = 0
  | .field _ _ => False

instance : DecidablePred Overlooked
  | .element type octets =>
    inferInstanceAs (Decidable (type = 0x06 ∧ Unterminated octets ∧ brokenArc octets = 0))
  | .field _ _ => inferInstanceAs (Decidable False)

theorem Overlooked.malformed {val : SnmpValue} (h : val.Overlooked) : val.Malformed := by
  cases val with
  | element type octets => exact .inr ⟨h.1, h.2.1⟩
  | field expected type => exact h.elim

end SnmpValue

/-- An arc that has been begun is one whose last octet announces another. -/
theorem unterminated_of_brokenArc {octets : Bytes} (h : brokenArc octets ≠ 0) :
    Unterminated octets := by
  -- by the last octet; one that ends an arc leaves nothing
  induction octets using List.reverseRecOn with
  | nil => exact absurd rfl h
  | append_singleton octets octet _ =>
    rw [brokenArc, List.foldl_append, List.foldl_cons, List.foldl_nil] at h
    rw [Unterminated, List.getLast?_concat, Option.any_some, decide_eq_true_eq]
    by_contra h_last
    exact h (if_pos (UInt8.not_le.mp h_last))

/-- The loop of `get_OID` says `false` when there is something of an arc left
over. By induction on the octets, with what there is of the arc so far. -/
theorem getOidLoop_eq_none_iff (octets : Bytes) (first : Bool) (v : UInt32) (oidOut : Bytes) :
    getOidLoop octets first v oidOut = none ↔
      octets.foldl (fun (v : UInt32) (octet : UInt8) =>
        if octet < 128 then 0 else v <<< 7 ||| (octet &&& 127).toUInt32) v ≠ 0 := by
  induction octets generalizing first v oidOut with
  | nil =>
    rw [getOidLoop, List.foldl_nil]
    split
    · next h => exact iff_of_true rfl h
    · next h => exact iff_of_false (by simp) h
  | cons octet octets ih =>
    rw [getOidLoop, List.foldl_cons]
    -- the octet ends an arc, and nothing is left of it, or announces another one
    by_cases h_end : octet < 128
    · rw [if_pos h_end, if_pos h_end]
      exact ih _ _ _
    · rw [if_neg h_end, if_neg h_end]
      exact ih _ _ _

/-- **What the code refuses** is what is malformed, but for what it overlooks:
an OID that breaks off in an arc of zeros. -/
theorem SnmpValue.refused_iff (val : SnmpValue) :
    val.Refused ↔ val.Malformed ∧ ¬val.Overlooked := by
  cases val with
  | field expected type => exact (and_iff_left id).symm
  | element type octets =>
    have h_oid : getOID octets = none ↔ brokenArc octets ≠ 0 :=
      getOidLoop_eq_none_iff octets true 0 []
    show type ∉ berTypes ∨ type = 0x06 ∧ getOID octets = none ↔
      (type ∉ berTypes ∨ type = 0x06 ∧ Unterminated octets) ∧
        ¬(type = 0x06 ∧ Unterminated octets ∧ brokenArc octets = 0)
    rw [h_oid]
    constructor
    · rintro (h_type | ⟨rfl, h_arc⟩)
      · refine ⟨.inl h_type, fun h => h_type ?_⟩
        rw [h.1]
        decide
      · exact ⟨.inr ⟨rfl, unterminated_of_brokenArc h_arc⟩, fun h => h_arc h.2.2⟩
    · rintro ⟨h_type | ⟨rfl, h_open⟩, h_not⟩
      · exact .inl h_type
      · exact .inr ⟨rfl, fun h_zero => h_not ⟨rfl, h_open, h_zero⟩⟩

/-! ### The packet -/

/-- A malformed value was visited. -/
def VisitsMalformed (run : Parse (Bool × OidReq)) : Prop :=
  ∃ inVarbind val, .value inVarbind val ∈ run.events ∧ val.Malformed

/-- `process_BER` returns `false` for the packet, or throws a range error. -/
def RejectedAsWhole (sd : SnmpData) (packet : Bytes) : Prop :=
  (∃ oidsReq, processBER sd false 2 true true packet {} = .ok (false, oidsReq)) ∨
    processBER sd false 2 true true packet {} = .error .rangeError

variable {sd : SnmpData}

theorem tracedPacket_result (packet : Bytes) :
    (tracedPacket sd packet).result = processBER sd false 2 true true packet {} :=
  tracedBER_result sd false 2 true true false (.ofBytes packet) {}

/-- What is left to happen when a packet is not rejected: it is accepted.
Following a null pointer is not possible with a tree that has a node. -/
theorem rejectedAsWhole_iff (h_sd : sd.data ≠ []) (packet : Bytes) :
    RejectedAsWhole sd packet ↔
      .short ∈ (tracedPacket sd packet).events ∨ Refusal (tracedPacket sd packet).events := by
  have h_run : Visits ParserEvent.Ok false Refused (tracedPacket sd packet) :=
    visits_tracedBER h_sd false 2 true true (.ofBytes packet) {}
  rw [RejectedAsWhole, ← tracedPacket_result, h_run.short_iff, or_comm]
  refine or_congr_right' fun h_short => ?_
  cases h : (tracedPacket sd packet).result with
  | error e =>
    -- the only error is a range error
    exact absurd (h.trans (congrArg _ (h_run.fault_eq e h))) h_short
  | ok r =>
    obtain ⟨ok, oidsReq⟩ := r
    rw [← h_run.refused_iff rfl _ h]
    constructor
    · rintro ⟨req, h_req⟩
      exact (congrArg Prod.fst (Except.ok.inj h_req))
    · intro h_ok
      exact ⟨oidsReq, by rw [show ok = false from h_ok]⟩

/-- A packet with a malformed value in it is rejected as a whole, if and only if
the malformed values are not all inside varbinds or overlooked, or bytes are
missing as well. -/
theorem rejectedWhole_iff (h_sd : sd.data ≠ []) (packet : Bytes) :
    (VisitsMalformed (tracedPacket sd packet) → RejectedAsWhole sd packet) ↔
      ((∃ val, .value true val ∈ (tracedPacket sd packet).events ∧ val.Malformed) ∨
          (∃ val, .value false val ∈ (tracedPacket sd packet).events ∧ val.Overlooked) →
        .short ∈ (tracedPacket sd packet).events ∨
          ∃ val, .value false val ∈ (tracedPacket sd packet).events ∧ val.Malformed ∧
            ¬val.Overlooked) := by
  have h_refusal : Refusal (tracedPacket sd packet).events ↔
      ∃ val, .value false val ∈ (tracedPacket sd packet).events ∧ val.Malformed ∧
        ¬val.Overlooked :=
    exists_congr fun val => and_congr_right fun _ => val.refused_iff
  rw [rejectedAsWhole_iff h_sd, h_refusal]
  constructor
  · rintro h (⟨val, h_mem, h_val⟩ | ⟨val, h_mem, h_val⟩)
    · exact h ⟨true, val, h_mem, h_val⟩
    · exact h ⟨false, val, h_mem, h_val.malformed⟩
  · rintro h ⟨inVarbind, val, h_mem, h_val⟩
    -- outside the varbinds, what is not overlooked is enough by itself
    cases inVarbind with
    | true => exact h (.inl ⟨val, h_mem, h_val⟩)
    | false =>
      by_cases h_seen : val.Overlooked
      · exact h (.inr ⟨val, h_mem, h_seen⟩)
      · exact .inr ⟨val, h_mem, h_val, h_seen⟩

theorem initSnmp_ne_nil : (initSnmp sampleDate).data ≠ [] :=
  fun h => absurd (congrArg List.isEmpty h) (by decide +kernel)

/-- A GetRequest whose one varbind is no sequence. -/
def strangeGet : Bytes :=
  [0x30, 22, 0x02, 1, 1, 0x04, 2, 112, 117, 0xa0, 13, 0x02, 1, 5, 0x02, 1, 0, 0x02, 1, 0, 0x30, 2,
    0x31, 0]

/-- The varbind is two calls away from the top, and all of the packet is
rejected. -/
theorem rejectedWhole_nested :
    VisitsMalformed (tracedPacket (initSnmp sampleDate) strangeGet) ∧
      RejectedAsWhole (initSnmp sampleDate) strangeGet :=
  have h_mem : .value false (.field 0x30 0x31) ∈
      (tracedPacket (initSnmp sampleDate) strangeGet).events := by decide +kernel
  have h_malformed : VisitsMalformed (tracedPacket (initSnmp sampleDate) strangeGet) :=
    ⟨false, .field 0x30 0x31, h_mem, by decide⟩
  ⟨h_malformed, (rejectedWhole_iff initSnmp_ne_nil strangeGet).mpr
    (fun _ => .inr ⟨.field 0x30 0x31, h_mem, by decide, by decide⟩) h_malformed⟩

/-- A GetRequest with one varbind, in which the OID does not end. -/
def unterminatedGet : Bytes :=
  [0x30, 28, 0x02, 1, 1, 0x04, 2, 112, 117, 0xa0, 19, 0x02, 1, 5, 0x02, 1, 0, 0x02, 1, 0, 0x30, 8,
    0x30, 6, 0x06, 2, 0x2b, 0x86, 0x05, 0]

/-- It is accepted, and answered with a reply without varbinds. So is an OID at
the top that breaks off with a zero, and this one is looked up as well. -/
theorem rejectedWhole_fails :
    (VisitsMalformed (tracedPacket (initSnmp sampleDate) unterminatedGet) ∧
      ¬RejectedAsWhole (initSnmp sampleDate) unterminatedGet ∧
      ((acceptPacket (initSnmp sampleDate) unterminatedGet).bind
        (genReply (initSnmp sampleDate) sampleReadings)).isSome) ∧
    VisitsMalformed (tracedPacket (initSnmp sampleDate) [0x06, 2, 0x2b, 0x80]) ∧
      ¬RejectedAsWhole (initSnmp sampleDate) [0x06, 2, 0x2b, 0x80] := by
  have h_inside : processBER (initSnmp sampleDate) false 2 true true unterminatedGet {} =
      .ok (true, { reqId := 5, version := 1, community := [112, 117] }) := by decide +kernel
  have h_zero : processBER (initSnmp sampleDate) false 2 true true [0x06, 2, 0x2b, 0x80] {} =
      .ok (true, { oids := [ascii "1.3"] }) := by decide +kernel
  refine ⟨⟨⟨true, .element 0x06 [0x2b, 0x86], by decide +kernel, by decide⟩, ?_,
    by decide +kernel⟩, ⟨false, .element 0x06 [0x2b, 0x80], by decide +kernel, by decide⟩, ?_⟩
  · rw [RejectedAsWhole, h_inside]
    rintro (⟨req, h⟩ | h) <;> cases h
  · rw [RejectedAsWhole, h_zero]
    rintro (⟨req, h⟩ | h) <;> cases h

end IscsiTarget
