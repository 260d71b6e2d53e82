import IscsiTarget.Commands.Forms
import IscsiTarget.Frame.RoundTrip

/-!
# Three emitters

A Data-In and a reject are not laid out by `get_helper`. A Data-In gets the digest of its data
without the padding, right behind them and in front of the padding; a reject gets no digest at all.
`emitters_iff` says when the frames are those of `get_helper` all the same. That a digest in the
wrong place is never right by accident follows from the checksum: zeros behind a message act on its
remainder by steps of the polynomial, and what these leave in its highest byte is known
(`digest_ne`).
-/

namespace IscsiTarget

open Buffer Reception

/-! ### Digests in the wrong place -/

/-- The highest byte of what the steps make of ones. -/
theorem polySteps_ones_ne : ∀ p ∈ [1, 2, 3],
    Crc.polySteps crc32cPoly (8 * p) (BitVec.ofNat 32 (2 ^ (8 * p) - 1)) >>> 24 ≠ 0xFF := by
  decide +kernel

/-- The remainder of a message with zeros behind it. -/
theorem toBitVec_crc32c_zeros (data : Bytes) (p : ℕ) :
    (crc32c (data ++ zeros p) none).2.toBitVec =
      Crc.polySteps crc32cPoly (8 * p) (crc32c data none).2.toBitVec := by
  rw [toBitVec_crc32c_snd, toBitVec_crc32c_snd, Crc.remainder_append]
  exact Crc.remainder_replicate _ (by decide) p _

/-- The digest is the complement of the remainder. -/
theorem toNat_crc32c_fst (data : Bytes) :
    (crc32c data none).1.toNat = 2 ^ 32 - 1 - (crc32c data none).2.toBitVec.toNat :=
  UInt32.toNat_not _

/-- When the lowest bytes of the digest of the data are zero, the highest byte
of the digest of the padded data is not. -/
theorem digest_zeros {data : Bytes} {p : ℕ} (h_p : p ∈ [1, 2, 3])
    (h_low : (crc32c data none).1.toNat % 2 ^ (8 * p) = 0) :
    (crc32c (data ++ zeros p) none).1.toNat / 2 ^ 24 ≠ 0 := by
  intro h_high
  rw [toNat_crc32c_fst] at h_low h_high
  rw [toBitVec_crc32c_zeros] at h_high
  generalize (crc32c data none).2.toBitVec = c at h_low h_high
  have h_c : c.toNat < 2 ^ 32 := c.isLt
  -- the lowest bytes of the remainder are ones
  have h_ones : Crc.low (8 * p) c = BitVec.ofNat 32 (2 ^ (8 * p) - 1) := by
    unfold Crc.low
    congr 1
    fin_cases h_p <;> simp only [Nat.reduceMul, Nat.reducePow] at h_low ⊢ <;> omega
  have h_top : Crc.polySteps crc32cPoly (8 * p) c >>> 24 = 0xFF := by
    have h_lt := (Crc.polySteps crc32cPoly (8 * p) c).isLt
    apply BitVec.eq_of_toNat_eq
    rw [BitVec.toNat_ushiftRight, Nat.shiftRight_eq_div_pow]
    change _ = 255
    omega
  have h_gone : c >>> (8 * p) >>> 24 = 0#32 := by
    rw [← BitVec.shiftRight_add]
    apply BitVec.ushiftRight_eq_zero
    fin_cases h_p <;> decide
  rw [Crc.polySteps_split, h_ones, BitVec.ushiftRight_xor_distrib, h_gone, BitVec.xor_zero] at h_top
  exact polySteps_ones_ne p h_p h_top

theorem byteAt_eq_zero_iff {v shift : ℕ} : byteAt v shift = 0 ↔ v / 2 ^ shift % 256 = 0 := by
  rw [← toNat_byteAt]
  exact ⟨fun h => congrArg UInt8.toNat h, fun h => UInt8.toNat.inj h⟩

/-- The digest of the data in front of the padding is not the padding and the
digest of the padded data. -/
theorem digest_ne (data : Bytes) {p : ℕ} (h_p : p ∈ [1, 2, 3]) :
    nativeBytes (crc32c data none).1 ++ zeros p ≠
      zeros p ++ nativeBytes (crc32c (data ++ zeros p) none).1 := by
  intro h
  have h_lt := (crc32c (data ++ zeros p) none).1.toNat_lt
  have h_zeros := @digest_zeros data p h_p
  generalize (crc32c data none).1 = v at h h_zeros
  generalize (crc32c (data ++ zeros p) none).1 = v' at h h_lt h_zeros
  unfold nativeBytes at h
  -- the first bytes of the one digest and the last byte of the other meet the padding
  refine h_zeros ?_ ?_
  · fin_cases h_p <;>
      simp only [zeros, List.replicate, List.cons_append, List.nil_append, List.cons.injEq,
        byteAt_eq_zero_iff] at h ⊢ <;> omega
  · fin_cases h_p <;>
      simp only [zeros, List.replicate, List.cons_append, List.nil_append, List.cons.injEq,
        @eq_comm _ (0 : UInt8), byteAt_eq_zero_iff] at h ⊢ <;> omega

/-! ### Data-In -/

theorem zeros_add (m n : ℕ) : zeros (m + n) = zeros m ++ zeros n :=
  List.replicate_add ..

/-- The digest of `push_response`, and the padding behind it. -/
def streamedEnd (dataDigest : Bool) (payload : Bytes) : Bytes :=
  (if dataDigest then nativeBytes (crc32c payload none).1 else []) ++
    zeros (paddingOf payload.length)

/-- The buffer of `gen_data_in_pdu` after the header: the data go right behind
it. Padding and digest come later, and the room for them is zero until then. -/
theorem genDataInBuffer_eq (ses : Session) (header : Header) (n : ℕ) :
    genDataInBuffer ses header n =
      some ((header.toList ++ headerDigestBytes ses.getHeaderDigest header) ++
          zeros (padded n + if ses.getDataDigest then 4 else 0),
        (header.toList ++ headerDigestBytes ses.getHeaderDigest header).length) := by
  have h_padded : padded (48 + n) = 48 + padded n := by
    unfold padded
    omega
  -- the size is that of a front and a rest
  have h_size : padded (48 + n) + (if ses.getHeaderDigest then 4 else 0) +
      (if ses.getDataDigest then 4 else 0) =
      (48 + if ses.getHeaderDigest then 4 else 0) +
        (padded n + if ses.getDataDigest then 4 else 0) := by
    omega
  have h_blit := @blit_header (zeros (48 + if ses.getHeaderDigest then 4 else 0))
    (zeros (padded n + if ses.getDataDigest then 4 else 0)) ses.getHeaderDigest header
    (length_zeros _)
  rw [← zeros_add, ← h_size] at h_blit
  rw [length_front]
  change ((blit (zeros (padded (48 + n) + (if ses.getHeaderDigest then 4 else 0) +
      if ses.getDataDigest then 4 else 0)) 0 header.toList).bind fun out =>
    (putHeaderDigest out (headerDigestOf ses.getHeaderDigest header)).bind fun out =>
      some (out, 48 + if ses.getHeaderDigest then 4 else 0)) = _
  rw [← Option.bind_assoc, h_blit]
  rfl

/-- The digest is written over the zeros behind the payload. When there is
padding, it takes the place of it. -/
theorem putDataDigest_eq (front payload : Bytes) (dataDigest : Bool) :
    putDataDigest (front ++ (payload ++ zeros (paddingOf payload.length +
      if dataDigest then 4 else 0))) front.length payload dataDigest =
      some (front ++ (payload ++ streamedEnd dataDigest payload)) := by
  unfold putDataDigest streamedEnd
  cases dataDigest with
  | false => rfl
  | true =>
    have h_blit := @blit_append _ (front ++ payload) (zeros 4) (zeros (paddingOf payload.length))
      (nativeBytes (crc32c payload none).1) rfl
    rw [List.length_append, List.append_assoc, List.append_assoc] at h_blit
    rw [if_pos rfl, if_pos rfl, if_pos rfl, Nat.add_comm (paddingOf _), zeros_add]
    exact h_blit

/-- A Data-In as it is sent. -/
theorem DataInPdu.frame_eq (ses : Session) (p : DataInPdu) :
    p.frame ses = some ((p.header.toList ++ headerDigestBytes ses.getHeaderDigest p.header) ++
      (p.payload ++ streamedEnd ses.getDataDigest p.payload)) := by
  unfold DataInPdu.frame
  rw [genDataInBuffer_eq, padded_eq, Nat.add_assoc, zeros_add]
  generalize p.header.toList ++ headerDigestBytes ses.getHeaderDigest p.header = front
  change ((blit (front ++ (zeros p.payload.length ++ _)) front.length p.payload).bind fun out =>
    putDataDigest out front.length p.payload ses.getDataDigest) = _
  rw [blit_append (length_zeros _).symm]
  exact putDataDigest_eq front p.payload ses.getDataDigest

/-- The digest and the padding are in the right order when there is only one of
them. The streaming path puts the digest right behind the data, and pads behind
it. -/
theorem streamedEnd_eq_iff (dataDigest : Bool) (payload : Bytes) :
    streamedEnd dataDigest payload =
        zeros (paddingOf payload.length) ++ dataDigestBytes dataDigest payload ↔
      dataDigest = false ∨ payload.length % 4 = 0 := by
  unfold streamedEnd dataDigestBytes segment
  cases dataDigest with
  | false => exact iff_of_true (List.append_nil _).symm (Or.inl rfl)
  | true =>
    rw [if_pos rfl, if_pos rfl]
    -- without padding there is no order to get wrong, with padding the last four bytes differ
    by_cases h_mod : payload.length % 4 = 0
    · have h_none : paddingOf payload.length = 0 := by
        unfold paddingOf padded
        omega
      refine iff_of_true ?_ (Or.inr h_mod)
      rw [h_none, show zeros 0 = [] from rfl, List.append_nil, List.append_nil, List.nil_append]
    · have h_some : paddingOf payload.length ∈ [1, 2, 3] := by
        simp only [List.mem_cons, List.not_mem_nil, or_false]
        unfold paddingOf padded
        omega
      exact iff_of_false (digest_ne payload h_some)
        (not_or.mpr ⟨Bool.true_eq_false_eq_False, h_mod⟩)

/-- A Data-In with a payload is the frame of `get_helper` when no data digest
was negotiated or there is no padding. -/
theorem DataInPdu.frame_eq_iff (ses : Session) (memory : ℕ → UInt8) (p : DataInPdu)
    (h_payload : p.payload ≠ []) :
    p.frame ses = getHelper ses memory p.header p.payload true ↔
      ses.getDataDigest = false ∨ p.payload.length % 4 = 0 := by
  rw [p.frame_eq, getHelper_eq, Bool.and_true, Bool.and_true, layout, if_neg h_payload, segment,
    List.append_assoc p.payload, Option.some_inj, List.append_cancel_left_eq,
    List.append_cancel_left_eq]
  exact streamedEnd_eq_iff ses.getDataDigest p.payload

/-! ### Reject -/

/-- A reject is the frame of `get_helper` when no digest was negotiated. It is
put together by hand, and nobody asks the session about digests. -/
theorem RejectPdu.frame_eq_iff (ses : Session) (memory : ℕ → UInt8) (p : RejectPdu) :
    some p.frame = getHelper ses memory p.header p.problemPdu.toList true ↔
      ses.getHeaderDigest = false ∧ ses.getDataDigest = false := by
  have h_length := p.problemPdu.length_toList
  have h_ne : p.problemPdu.toList ≠ [] := fun h => by
    rw [h] at h_length
    exact absurd h_length (by decide)
  have h_segment : segment p.problemPdu.toList = p.problemPdu.toList := by
    rw [segment, h_length]
    exact List.append_nil _
  rw [getHelper_eq, Bool.and_true, Bool.and_true, layout, if_neg h_ne, h_segment, Option.some_inj]
  constructor
  · -- a digest makes the frame longer
    intro h
    have h_frame := congrArg List.length h
    rw [RejectPdu.frame, List.length_append, List.length_append, List.length_append,
      List.length_append, p.header.length_toList, h_length] at h_frame
    cases h_header : ses.getHeaderDigest <;> cases h_data : ses.getDataDigest <;>
      rw [h_header, h_data] at h_frame <;>
      first
      | exact ⟨rfl, rfl⟩
      | exact absurd h_frame (by simp [headerDigestBytes, dataDigestBytes])
  · rintro ⟨h_header, h_data⟩
    rw [h_header, h_data, RejectPdu.frame]
    change _ = (_ ++ []) ++ (_ ++ [])
    rw [List.append_nil, List.append_nil]

/-! ### All of them -/

/-- **The emitters.** A streamed Data-In is the frame of `get_helper` for its
header and its payload exactly when no data digest was negotiated or the payload
needs no padding; a reject exactly when no digest was negotiated. The one is put
together by `gen_data_in_pdu`, which has no padding in its checksum, the other
by a function that knows nothing of digests. -/
theorem emitters_iff {β : Type} (T : Target β) (ses : Session) (memory : ℕ → UInt8) :
    (∀ (replyTo : Header) (hasResidual : Option (Residual × UInt32)) (offset n : UInt32)
        (last : Bool) (payload : Bytes), payload.length = n.toNat → 1 ≤ n.toNat →
        n.toNat < 2 ^ 24 →
      let p := (genDataInPdu T ses replyTo hasResidual offset n last payload).1
      (p.frame ses = getHelper ses memory p.header payload true ↔
        ses.getDataDigest = false ∨ n.toNat % 4 = 0)) ∧
    ∀ (about : Pdu) (reason : Option UInt8) (p : RejectPdu),
      generateRejectPdu about reason = some (.reject p) →
      (some p.frame = getHelper ses memory p.header p.problemPdu.toList true ↔
        ses.getHeaderDigest = false ∧ ses.getDataDigest = false) := by
  constructor
  · intro replyTo hasResidual offset n last payload h_length h_pos _
    have h_payload : payload ≠ [] := List.length_pos_iff.mp (h_length ▸ h_pos)
    rw [← h_length]
    exact DataInPdu.frame_eq_iff ses memory _ h_payload
  · intro about reason p _
    exact p.frame_eq_iff ses memory

/-- The header of a READ(10). -/
def readHeader : Header :=
  Header.ofBytes ([1, 0xc1, 0, 0, 0, 0, 0, 0] ++ zeros 24 ++ [0x28] ++ zeros 15)

/-- In a session with both digests: a Data-In of eight bytes, and the reject of
a ping. Eight bytes need no padding, and so the frame is right. -/
theorem emitters_iff_eight :
    ((genDataInPdu (Sample.target 100) digestSession readHeader none 0 8 true
        [1, 2, 3, 4, 5, 6, 7, 8]).1.frame digestSession =
      getHelper digestSession (fun _ => 0xaa)
        (genDataInPdu (Sample.target 100) digestSession readHeader none 0 8 true
          [1, 2, 3, 4, 5, 6, 7, 8]).1.header [1, 2, 3, 4, 5, 6, 7, 8] true) ∧
    some (RejectPdu.mk 9 pingHeader).frame ≠
      getHelper digestSession (fun _ => 0xaa) (RejectPdu.mk 9 pingHeader).header
        pingHeader.toList true :=
  ⟨((emitters_iff (Sample.target 100) digestSession (fun _ => 0xaa)).1 readHeader none 0 8 true
      [1, 2, 3, 4, 5, 6, 7, 8] rfl (by decide) (by decide)).mpr (Or.inr rfl),
    fun h => absurd (((emitters_iff (Sample.target 100) digestSession (fun _ => 0xaa)).2
      { bhs := pingHeader, data := [], data_lt := by decide } none ⟨9, pingHeader⟩ rfl).mp h).1
      (by decide)⟩

/-- With a data digest, five bytes of payload have it in front of the padding; a
reject has no digest at all. -/
theorem emitters_five :
    (genDataInPdu (Sample.target 100) digestSession readHeader none 0 5 true
        [1, 2, 3, 4, 5]).1.frame digestSession ≠
      getHelper digestSession (fun _ => 0xaa)
        (genDataInPdu (Sample.target 100) digestSession readHeader none 0 5 true
          [1, 2, 3, 4, 5]).1.header [1, 2, 3, 4, 5] true ∧
    generateRejectPdu { bhs := pingHeader, data := [], data_lt := by decide } none =
      some (.reject ⟨9, pingHeader⟩) ∧
    some (RejectPdu.mk 9 pingHeader).frame ≠
      getHelper digestSession (fun _ => 0xaa) (RejectPdu.mk 9 pingHeader).header
        pingHeader.toList true := by
  decide +kernel

end IscsiTarget
