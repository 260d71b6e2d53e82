import IscsiTarget.Model.SnmpElem

/-!
# What an element writes

`get_payload` of an element stays inside its buffer, or not, by the sizes of the elements
below it. A string or an OID of 254 or 255 bytes has a size that does not fit eight bits, and
its buffer is then too small for its header (`Fits`). A sequence has a buffer for all it can
hold, and stops at the first element that would go past the end; only the elements up to
that one are asked for their payload (`seqFits`).

`getPayload_spec` is that rule for every element, and `seqSize` what comes out of it.
-/

namespace IscsiTarget

open Buffer

namespace SnmpElem

mutual

/-- The size `get_payload` returns. The leaves keep theirs in eight bits, and a
sequence adds up what its elements say. -/
def size : SnmpElem → ℕ
  | .integer _ _ len => len.toNat
  | .sequence elems => seqSize 2 elems
  | .null => 2
  | .octetString _ len => len.toNat
  | .oid _ len => len.toNat
  | .pdu _ elems => seqSize 2 elems

/-- How far a sequence that is filled up to `o` gets. The offset has eight bits. -/
def seqSize : ℕ → List SnmpElem → ℕ
  | o, [] => o
  | o, e :: elems => if o + e.size ≥ 257 then o else seqSize ((o + e.size) % 256) elems

end

mutual

/-- The elements whose payload stays inside its buffer. A leaf fits when its
size has not wrapped around below the two bytes of its header. -/
def Fits : SnmpElem → Prop
  | .integer _ _ len => 2 ≤ len.toNat
  | .sequence elems => seqFits 2 elems
  | .null => True
  | .octetString _ len => 2 ≤ len.toNat
  | .oid _ len => 2 ≤ len.toNat
  | .pdu _ elems => seqFits 2 elems

/-- The same for a sequence that is filled up to `o`: what is behind the first
element that does not fit any more does not matter. -/
def seqFits : ℕ → List SnmpElem → Prop
  | _, [] => True
  | o, e :: elems => e.Fits ∧ (o + e.size < 257 → seqFits ((o + e.size) % 256) elems)

end

end SnmpElem

open SnmpElem

/-! ### Elements without elements -/

theorem newBuffer_length (size : ℕ) : (newBuffer size).length = size := List.length_replicate

/-- The two bytes in front of every payload need room. -/
theorem toNat_sub_two {len : UInt8} (h : 2 ≤ len.toNat) : (len - 2).toNat + 2 = len.toNat := by
  have h_le : (2 : UInt8) ≤ len := UInt8.le_iff_toNat_le.mpr h
  rw [UInt8.toNat_sub_of_le _ _ h_le]
  show len.toNat - 2 + 2 = len.toNat
  omega

/-- The loop of `snmp_integer::get_payload` fills what the two bytes leave, and
all of its writes are inside the buffer. -/
theorem integerLoop_eq (v : UInt64) (plLen : ℕ) {out : Bytes} (h : plLen + 2 ≤ out.length) :
    ∃ out', integerLoop v plLen out = some out' := by
  unfold integerLoop
  generalize hf : (fun (out : Bytes) (i : ℕ) =>
    put out (i + 2) (v >>> UInt64.ofNat (plLen * 8 - (i + 1) * 8)).toUInt8) = f
  have h_is : ∀ i ∈ List.range plLen, i + 2 < out.length := fun i hi => by
    have := List.mem_range.mp hi
    omega
  generalize List.range plLen = is at h_is
  -- a turn keeps the size of the buffer, so the next one has as much room
  induction is generalizing out with
  | nil => exact ⟨out, rfl⟩
  | cons i is ih =>
    obtain ⟨out₁, h_poke, h_len⟩ :=
      exists_put (v >>> UInt64.ofNat (plLen * 8 - (i + 1) * 8)).toUInt8 (h_is i List.mem_cons_self)
    obtain ⟨out₂, h_rest⟩ := @ih out₁ (by omega) fun j hj => by
      have := h_is j (List.mem_cons_of_mem i hj)
      omega
    refine ⟨out₂, ?_⟩
    rw [List.foldlM_cons, ← hf]
    show (put out (i + 2) _).bind _ = _
    rw [h_poke, Option.bind_some, hf]
    exact h_rest

/-- The header of a payload: the type and the length go into the first two
bytes, when the buffer has them. -/
theorem header_spec (a b : UInt8) (len : ℕ) :
    (2 ≤ len → ∃ out out', put (newBuffer len) 0 a = some out ∧ put out 1 b = some out' ∧
      out'.length = len) ∧
    (len < 2 → ∀ out, put (newBuffer len) 0 a = some out → put out 1 b = none) := by
  refine ⟨fun h => ?_, fun h out h_out => ?_⟩
  · obtain ⟨out, h_out, h_len⟩ :=
      exists_put a (show 0 < (newBuffer len).length by rw [newBuffer_length]; omega)
    rw [newBuffer_length] at h_len
    obtain ⟨out', h_out', h_len'⟩ := exists_put b (show 1 < out.length by omega)
    exact ⟨out, out', h_out, h_out', by omega⟩
  · have h_len := length_of_put h_out
    rw [newBuffer_length] at h_len
    exact put_of_le b (by omega)

theorem integerPayload_spec (type : SnmpIntegerType) (v : UInt64) (len : UInt8) :
    (2 ≤ len.toNat → ∃ first, integerPayload type v len = some ⟨first, len⟩) ∧
    (len.toNat < 2 → integerPayload type v len = none) := by
  obtain ⟨h_room, h_none⟩ := header_spec type.snmpType (len - 2) len.toNat
  unfold integerPayload
  dsimp only
  refine ⟨fun h => ?_, fun h => ?_⟩
  · obtain ⟨out, out', h_out, h_out', h_len⟩ := h_room h
    have h_two := toNat_sub_two h
    obtain ⟨first, h_loop⟩ := @integerLoop_eq v (len - 2).toNat out' (by omega)
    exact ⟨first, by simp only [h_out, h_out', h_loop, bind, Option.bind]⟩
  · cases h_out : put (newBuffer len.toNat) 0 type.snmpType with
    | none => rfl
    | some out => simp only [h_none h out h_out, bind, Option.bind]

theorem octetStringPayload_spec (v : Bytes) (len : UInt8) :
    (2 ≤ len.toNat → ∃ first, octetStringPayload v len = some ⟨first, len⟩) ∧
    (len.toNat < 2 → octetStringPayload v len = none) := by
  have h_new := newBuffer_length len.toNat
  have h_take : (v.take (len - 2).toNat).length ≤ (len - 2).toNat := by
    rw [List.length_take]
    exact min_le_left _ _
  unfold octetStringPayload
  dsimp only
  refine ⟨fun h => ?_, fun h => ?_⟩
  · -- there is room for the two bytes of the header, and for as much of the text as is copied
    have h_two := toNat_sub_two h
    obtain ⟨out, h_out, h_len⟩ := @exists_blit _ (newBuffer len.toNat) (v.take (len - 2).toNat)
      2 (by omega)
    obtain ⟨out₁, h_out₁, h_len₁⟩ := exists_put (0x04 : UInt8) (show 0 < out.length by omega)
    obtain ⟨out₂, h_out₂, -⟩ := exists_put (len - 2) (show 1 < out₁.length by omega)
    exact ⟨out₂, by simp only [h_out, h_out₁, h_out₂, bind, Option.bind]⟩
  · rw [blit_of_lt (by omega)]
    rfl

theorem oidPayload_spec (v : Bytes) (len : UInt8) :
    (2 ≤ len.toNat → ∃ first, oidPayload v len = some ⟨first, len⟩) ∧
    (len.toNat < 2 → oidPayload v len = none) := by
  obtain ⟨h_room, h_none⟩ := header_spec 0x06 (len - 2) len.toNat
  unfold oidPayload
  dsimp only
  refine ⟨fun h => ?_, fun h => ?_⟩
  · -- the header goes in first, and the content behind it
    obtain ⟨out, out', h_out, h_out', h_len⟩ := h_room h
    have h_two := toNat_sub_two h
    have h_take : (v.take (len - 2).toNat).length ≤ (len - 2).toNat := by
      rw [List.length_take]
      exact min_le_left _ _
    obtain ⟨first, h_copy, -⟩ := @exists_blit _ out' (v.take (len - 2).toNat) 2 (by omega)
    simp only [h_out, h_out', bind, Option.bind]
    split
    · exact ⟨first, by rw [h_copy]⟩
    · exact ⟨out', rfl⟩
  · cases h_out : put (newBuffer len.toNat) 0 0x06 with
    | none => rfl
    | some out => simp only [h_none h out h_out, bind, Option.bind]

/-! ### Sequences -/

/-- What `get_payload` of `e` does: it returns a size, or leaves its buffer. -/
def PayloadIs (e : SnmpElem) : Prop :=
  (e.Fits → ∃ pl, e.getPayload = some pl ∧ pl.second.toNat = e.size) ∧
  (¬e.Fits → e.getPayload = none)

/-- What the loop of a sequence does. Its own buffer of 258 bytes is always
large enough: the offset is below 256, and an element that would go past 256 is
not copied. -/
def LoopIs (elems : List SnmpElem) : Prop :=
  ∀ (out : Bytes) (o : UInt8), out.length = 258 →
    (seqFits o.toNat elems → ∃ out' o', sequenceLoop elems out o = some (out', o') ∧
      out'.length = 258 ∧ o'.toNat = seqSize o.toNat elems) ∧
    (¬seqFits o.toNat elems → sequenceLoop elems out o = none)

theorem loopIs_cons {e : SnmpElem} {elems : List SnmpElem} (h_e : PayloadIs e)
    (h_elems : LoopIs elems) : LoopIs (e :: elems) := by
  intro out o h_out
  rw [sequenceLoop, seqSize, seqFits]
  by_cases h_fits : e.Fits
  · obtain ⟨pl, h_pl, h_size⟩ := h_e.1 h_fits
    rw [h_pl, ← h_size]
    have h_o := o.toNat_lt
    by_cases h_end : o.toNat + pl.second.toNat ≥ 257
    · -- the element does not fit: the loop stops
      rw [if_pos h_end]
      refine ⟨fun _ => ⟨out, o, ?_, h_out, rfl⟩,
        fun h => absurd ⟨h_fits, fun h_lt => absurd h_lt (by omega)⟩ h⟩
      show (if _ then _ else _) = _
      rw [if_pos h_end]
    · rw [if_neg h_end]
      have h_take : (pl.first.take pl.second.toNat).length ≤ pl.second.toNat := by
        rw [List.length_take]
        exact min_le_left _ _
      obtain ⟨out₁, h_blit, h_len⟩ := @exists_blit _ out (pl.first.take pl.second.toNat)
        o.toNat (by omega)
      have h_next : (o + pl.second).toNat = (o.toNat + pl.second.toNat) % 256 := UInt8.toNat_add _ _
      obtain ⟨h_some, h_none⟩ := h_elems out₁ (o + pl.second) (h_len.trans h_out)
      rw [h_next] at h_some h_none
      -- the element is copied, and the loop goes on behind it with a total of eight bits
      have h_turn : (some pl >>= fun pl =>
            if o.toNat + pl.second.toNat ≥ 257 then some (out, o)
            else do
              let out ← blit out o.toNat (pl.first.take pl.second.toNat)
              sequenceLoop elems out (o + pl.second)) =
          sequenceLoop elems out₁ (o + pl.second) := by
        show (if _ then _ else _) = _
        rw [if_neg h_end, h_blit]
        rfl
      rw [h_turn]
      exact ⟨fun h => h_some (h.2 (by omega)), fun h => h_none fun h' => h ⟨h_fits, fun _ => h'⟩⟩
  · rw [h_e.2 h_fits]
    exact ⟨fun h => absurd h.1 h_fits, fun _ => rfl⟩

/-- A sequence with another first byte in the end is a sequence. Its parts are
written behind each other, each one inside the buffer or not. -/
theorem sequencePayload_spec {elems : List SnmpElem} (h_elems : LoopIs elems) :
    PayloadIs (.sequence elems) := by
  have h_new := newBuffer_length 258
  obtain ⟨out, h_out, h_len⟩ := exists_put (0x30 : UInt8)
    (show 0 < (newBuffer 258).length by omega)
  obtain ⟨h_some, h_none⟩ := h_elems out 2 (by omega)
  unfold PayloadIs
  rw [Fits, getPayload, size, h_out]
  refine ⟨fun h => ?_, fun h => ?_⟩
  · obtain ⟨out₁, o, h_loop, h_len₁, h_o⟩ := h_some h
    obtain ⟨out₂, h_out₂, -⟩ := exists_put (o - 2) (show 1 < out₁.length by omega)
    exact ⟨⟨out₂, o⟩, by simp only [h_loop, h_out₂, bind, Option.bind], h_o⟩
  · simp only [h_none h, bind, Option.bind]

theorem pduPayload_spec (type : UInt8) {elems : List SnmpElem} (h_elems : LoopIs elems) :
    PayloadIs (.pdu type elems) := by
  have h_new := newBuffer_length 258
  obtain ⟨out, h_out, h_len⟩ := exists_put (0x30 : UInt8)
    (show 0 < (newBuffer 258).length by omega)
  obtain ⟨h_some, h_none⟩ := h_elems out 2 (by omega)
  unfold PayloadIs
  rw [Fits, getPayload, size, h_out]
  refine ⟨fun h => ?_, fun h => ?_⟩
  · obtain ⟨out₁, o, h_loop, h_len₁, h_o⟩ := h_some h
    obtain ⟨out₂, h_out₂, h_len₂⟩ := exists_put (o - 2) (show 1 < out₁.length by omega)
    obtain ⟨out₃, h_out₃, -⟩ := exists_put type (show 0 < out₂.length by omega)
    exact ⟨⟨out₃, o⟩, by simp only [h_loop, h_out₂, h_out₃, bind, Option.bind], h_o⟩
  · simp only [h_none h, bind, Option.bind]

mutual

/-- `get_payload` of every element stays inside its buffer exactly when the
element fits. By induction over the element; a sequence asks its parts first. -/
theorem getPayload_spec : ∀ e : SnmpElem, PayloadIs e
  | .integer type v len => by
    obtain ⟨h_some, h_none⟩ := integerPayload_spec type v len
    unfold PayloadIs
    rw [Fits, getPayload, size]
    refine ⟨fun h => ?_, fun h => h_none (by omega)⟩
    obtain ⟨first, h_pl⟩ := h_some h
    exact ⟨_, h_pl, rfl⟩
  | .null => ⟨fun _ => ⟨⟨[0x05, 0x00], 2⟩, rfl, rfl⟩, fun h => absurd trivial h⟩
  | .octetString v len => by
    obtain ⟨h_some, h_none⟩ := octetStringPayload_spec v len
    unfold PayloadIs
    rw [Fits, getPayload, size]
    refine ⟨fun h => ?_, fun h => h_none (by omega)⟩
    obtain ⟨first, h_pl⟩ := h_some h
    exact ⟨_, h_pl, rfl⟩
  | .oid v len => by
    obtain ⟨h_some, h_none⟩ := oidPayload_spec v len
    unfold PayloadIs
    rw [Fits, getPayload, size]
    refine ⟨fun h => ?_, fun h => h_none (by omega)⟩
    obtain ⟨first, h_pl⟩ := h_some h
    exact ⟨_, h_pl, rfl⟩
  | .sequence elems => sequencePayload_spec (sequenceLoop_spec elems)
  | .pdu type elems => pduPayload_spec type (sequenceLoop_spec elems)

theorem sequenceLoop_spec : ∀ elems : List SnmpElem, LoopIs elems
  | [] => fun out o h_out => by
    rw [sequenceLoop, seqSize, seqFits]
    exact ⟨fun _ => ⟨out, o, rfl, h_out, rfl⟩, fun h => absurd trivial h⟩
  | e :: elems => loopIs_cons (getPayload_spec e) (sequenceLoop_spec elems)

end

end IscsiTarget
