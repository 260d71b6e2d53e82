import IscsiTarget.Commands.Refusal
import IscsiTarget.Write.Command

/-!
# What the answer to an UNMAP says

The answer to an UNMAP is GOOD when no descriptor was refused and no trim failed, and sense
data otherwise (`serve_unmap`). A descriptor that is executed inside the device does what it
says (`Unmaps.cleared`). What is left is the range check, which lets a descriptor through
that is longer than the device: `unmapTruth_iff` says that the answer is true unless there
is such a descriptor, and everything in the list succeeds.
-/

namespace IscsiTarget

variable {β : Type} {T : Target β} {medium : β → Medium UInt8}

/-- The block is one of the range. -/
def InBlocks (d : UInt64 × UInt32) (b : ℕ) : Prop := d.1.toNat ≤ b ∧ b < d.1.toNat + d.2.toNat

/-- The descriptor is a valid one: inside the device, and not too long. -/
def ValidDescriptor (T : Target β) (s : Scsi β) (d : UInt64 × UInt32) : Prop :=
  d.1.toNat + d.2.toNat ≤ s.size T ∧ d.2 ≤ T.build.maxUnmapBlocks

/-- The answer `p` to an UNMAP with these descriptors, received in the state
`s`, is a true one when the UNMAP leaves the state `s'`. -/
structure UnmapTruth (T : Target β) (medium : β → Medium UInt8) (ds : List (UInt64 × UInt32))
    (s s' : Scsi β) (p : ScsiResponsePdu) : Prop where
  valid : p.status = 0 → ∀ d ∈ ds, ValidDescriptor T s d
  zeroed : p.status = 0 → ∀ b, (∃ d ∈ ds, InBlocks d b) →
    (medium s'.disk).slice (b * T.blockSize) T.blockSize = List.replicate T.blockSize 0
  kept : p.status = 0 → ∀ b, (¬ ∃ d ∈ ds, InBlocks d b) →
    (medium s'.disk).slice (b * T.blockSize) T.blockSize =
      (medium s.disk).slice (b * T.blockSize) T.blockSize
  sense : (∃ d ∈ ds, ¬ ValidDescriptor T s d) → p.data ≠ []

namespace Scsi

variable {u u' : UnmapState β} {ds : List (UInt64 × UInt32)} {xs : List (Meeting β)}

/-! ### A list that succeeds -/

/-- A checkable descriptor that is not refused is a valid one. -/
theorem valid_of_not_refused {s : Scsi β} {d : UInt64 × UInt32} (h_check : s.Checkable T d)
    (h : ¬ (⟨s, d.1, d.2⟩ : Meeting β).Refused T) : ValidDescriptor T s d := by
  unfold Meeting.Refused at h
  push Not at h
  have h_range : s.validateRequest T d.1 d.2 none = none := h.1
  rw [validateRequest_eq_none_iff] at h_range
  refine ⟨?_, UInt32.not_lt.mp h.2⟩
  rcases h_check with h_le | h_end
  · exact h_range.2 h_le
  · omega

/-- **A list in which everything succeeds** zeroes the blocks of its descriptors
and no others. -/
theorem Unmaps.cleared (hB : T.backend.Stores medium) (h : Unmaps T u ds xs u')
    (h_check : ∀ d ∈ ds, u.scsi.Checkable T d)
    (h_good : ∀ x ∈ xs, ¬ x.Refused T ∧ (x.Trims T → (x.trimmed T).1 = .ok)) :
    (∀ d ∈ ds, ValidDescriptor T u.scsi d) ∧ ∀ b i, i < T.blockSize →
      ((∃ d ∈ ds, InBlocks d b) → medium u'.scsi.disk (b * T.blockSize + i) = 0) ∧
      ((¬ ∃ d ∈ ds, InBlocks d b) → medium u'.scsi.disk (b * T.blockSize + i) =
        medium u.scsi.disk (b * T.blockSize + i)) := by
  induction h with
  | done u => simp
  | refused h h_sense rest ih => exact absurd h (h_good _ List.mem_cons_self).1
  | @trimmed u u' d ds xs h h_ok rest ih =>
    rw [List.forall_mem_cons] at h_check h_good
    have h_valid := valid_of_not_refused h_check.1 h_good.1.1
    obtain ⟨h_medium, h_size⟩ := medium_trim hB h_valid.1 h_ok
    -- the device has the size it had, so the other descriptors stay what they are
    have h_size' : (u.scsi.trim T d.1 d.2).2.size T = u.scsi.size T := congrArg UInt64.toNat h_size
    obtain ⟨h_rest, h_blocks⟩ := ih (fun e he => by
      unfold Checkable
      rw [h_size']
      exact h_check.2 e he) h_good.2
    refine ⟨List.forall_mem_cons.mpr ⟨h_valid, fun e he => ?_⟩, fun b i hi => ?_⟩
    · have h_e := h_rest e he
      unfold ValidDescriptor at h_e ⊢
      rw [← h_size']
      exact h_e
    · obtain ⟨h_zero, h_kept⟩ := h_blocks b i hi
      dsimp only at h_kept
      rw [h_medium, Medium.clear_block_apply hi] at h_kept
      rw [List.exists_mem_cons_iff]
      by_cases h_later : ∃ e ∈ ds, InBlocks e b
      · exact ⟨fun _ => h_zero h_later, fun h_not => absurd (.inr h_later) h_not⟩
      · rw [h_kept h_later]
        refine ⟨fun h_in => if_pos (h_in.resolve_right h_later), fun h_not => if_neg ?_⟩
        exact fun h_in => h_not (.inl h_in)
  | failed h h_fail => exact absurd ((h_good _ List.mem_cons_self).2 h) h_fail
  | @empty u u' d ds xs h_taken h rest ih =>
    rw [List.forall_mem_cons] at h_check h_good
    have h_valid := valid_of_not_refused h_check.1 h_taken
    have h_none : d.2.toNat = 0 := by
      have h_zero : ¬ 0 < d.2 := fun h_pos => h ⟨h_taken, h_pos⟩
      rw [UInt32.lt_iff_toNat_lt] at h_zero
      exact Nat.eq_zero_of_not_pos h_zero
    obtain ⟨h_rest, h_blocks⟩ := ih h_check.2 h_good.2
    refine ⟨List.forall_mem_cons.mpr ⟨h_valid, h_rest⟩, fun b i hi => ?_⟩
    have h_not : ¬ InBlocks d b := by
      unfold InBlocks
      omega
    rw [List.exists_mem_cons_iff, or_iff_right h_not]
    exact h_blocks b i hi

/-! ### The answer -/

/-- The sense data `unmap` returns for the state its loop ends in. What the last
refusal has left is kept even when a later descriptor was trimmed. -/
def unmapSense (u : UnmapState β) : Bytes :=
  if u.rc = .ok then u.senseData
  else if u.senseData ≠ [] then u.senseData
  else if u.rc = .failLocked then errorReservationConflict1
  else errorWriteError

/-- There is none exactly when all is well. -/
theorem unmapSense_eq_nil_iff (u : UnmapState β) :
    unmapSense u = [] ↔ u.rc = .ok ∧ u.senseData = [] := by
  unfold unmapSense
  split
  · next h_rc => simp [h_rc]
  · next h_rc =>
    refine iff_of_false ?_ fun h => h_rc h.1
    split
    · next h_sense => exact h_sense
    · split
      · simp [errorReservationConflict1, fixedSense]
      · simp [errorWriteError, fixedSense]

/-- A list of complete descriptors is read to its end. Each turn takes sixteen
bytes off the front, by induction on their number. -/
theorem unmapLoop_complete {turns k : ℕ} {u : UnmapState β} {bytes : Bytes}
    (h_len : bytes.length = 16 * k) (h_turns : k ≤ turns) :
    unmapLoop T turns u bytes = .ok (unmapList T u (unmapDescriptors bytes)) := by
  suffices h : ∃ u', unmapLoop T turns u bytes = .ok u' by
    obtain ⟨u', h_loop⟩ := h
    rw [h_loop, unmapLoop_eq_ok h_loop]
  induction k generalizing turns u bytes with
  | zero =>
    obtain rfl := List.eq_nil_of_length_eq_zero h_len
    exact ⟨u, by rw [unmapLoop.eq_def]⟩
  | succ k ih =>
    obtain ⟨turns, rfl⟩ : ∃ t, turns = t + 1 := ⟨turns - 1, by omega⟩
    -- a descriptor has sixteen bytes, so none of the twelve that are read is missing
    rcases bytes with _ | ⟨d0, _ | ⟨d1, _ | ⟨d2, _ | ⟨d3, _ | ⟨d4, _ | ⟨d5, _ | ⟨d6, _ |
      ⟨d7, _ | ⟨n0, _ | ⟨n1, _ | ⟨n2, _ | ⟨n3, rest⟩⟩⟩⟩⟩⟩⟩⟩⟩⟩⟩⟩
    iterate 12
      · simp only [List.length_cons, List.length_nil] at h_len
        omega
    rw [unmapLoop]
    generalize unmapDescriptor T u (getUint64 d0 d1 d2 d3 d4 d5 d6 d7)
      (getUint32 n0 n1 n2 n3) = r
    obtain ⟨u₁, b⟩ := r
    cases b with
    | true =>
      refine ih ?_ (by omega)
      simp only [List.length_cons] at h_len
      rw [List.length_drop]
      omega
    | false => exact ⟨u₁, rfl⟩

/-- `unmap` over a list of complete descriptors, eight bytes of header in front.
It cannot fault then, and its sense data is that of the loop. -/
theorem unmap_complete {s : Scsi β} {data : Bytes} {k : ℕ} (h_len : data.length = 8 + 16 * k) :
    ∃ r, s.unmap T data =
        .ok (r, (unmapList T { scsi := s } (unmapDescriptors (data.drop 8))).scsi) ∧
      r.senseData = unmapSense (unmapList T { scsi := s } (unmapDescriptors (data.drop 8))) ∧
      r.inlineData = none ∧ r.location.nSectors = 0 ∧
      (r.type = .emptySense ∨ r.type = .asIs ∧ r.senseData ≠ []) := by
  have h_drop : (data.drop 8).length = 16 * k := by
    rw [List.length_drop]
    omega
  have h_loop := unmapLoop_complete (T := T) (u := ({ scsi := s } : UnmapState β)) h_drop
    (show k ≤ data.length by omega)
  unfold unmap unmapSense
  rw [h_loop]
  generalize unmapList T { scsi := s } (unmapDescriptors (data.drop 8)) = u
  -- the four answers of `unmap`, by the result and the sense data
  refine ⟨_, rfl, ?_, ?_, ?_, ?_⟩
  · split
    · rfl
    · split
      · rfl
      · split <;> rfl
  all_goals
    split
    · simp
    · split
      · simp_all
      · split <;> simp [errorReservationConflict1, errorWriteError, fixedSense]

end Scsi

/-- **An UNMAP is answered with one SCSI Response**, whose sense data is that of
the loop. There is no data to return, and none is asked for. -/
theorem serve_unmap (fuel : ℕ) (c : Conn β) {q : Pdu} (hop : q.bhs.getOpcode = .scsiCmd)
    (h_unmap : q.bhs.getCdb.opcode = .unmap) {k : ℕ} (h_len : q.data.length = 8 + 16 * k) :
    let u := Scsi.unmapList T { scsi := (c.receive q).scsi } (Scsi.unmapDescriptors (q.data.drop 8))
    serve T fuel c q =
      .ok (({ c with scsi := u.scsi } : Conn β).emit T
        (statusPdu T q (Scsi.unmapSense u) none)) := by
  intro u
  obtain ⟨r, h_unmapped, h_sense, h_inline, h_loc, h_type⟩ :=
    Scsi.unmap_complete (T := T) (s := (c.receive q).scsi) h_len
  have h_send : (c.receive q).scsi.send T fuel q.bhs.getLunNr q.bhs.getCdb q.data =
      .ok (r, u.scsi) := by
    rw [Scsi.send, h_unmap]
    exact h_unmapped
  rw [serve_of_status hop h_send h_inline h_loc h_type, h_sense]

/-- The status of a SCSI Response, and its data, tell whether there is sense
data. -/
theorem status_eq_zero_iff (replyTo : Header) (sense : Bytes)
    (residual : Option (Residual × UInt32)) {status : Option UInt8} (h : status ≠ some 0) :
    (ScsiResponsePdu.set T replyTo sense residual status).status = 0 ↔ sense = [] := by
  unfold ScsiResponsePdu.set
  by_cases h_sense : sense = []
  · simp [h_sense]
  · refine iff_of_false ?_ h_sense
    dsimp only
    rw [if_neg h_sense]
    cases status with
    | none => decide
    | some v => simpa using h

theorem data_ne_nil_iff (replyTo : Header) (sense : Bytes)
    (residual : Option (Residual × UInt32)) (status : Option UInt8) :
    (ScsiResponsePdu.set T replyTo sense residual status).data ≠ [] ↔ sense ≠ [] := by
  unfold ScsiResponsePdu.set
  by_cases h_sense : sense = []
  · simp [h_sense]
  · simp [h_sense, be16]

/-- **UNMAP does what its parameter list says**, for a list of complete
descriptors: what it answers is true exactly when no descriptor is longer than
the device (and ends below the largest address), or a descriptor is refused, or
a trim fails. -/
theorem unmapTruth_iff (hB : T.backend.Stores medium) (fuel : ℕ) (c : Conn β) {q : Pdu}
    (hop : q.bhs.getOpcode = .scsiCmd) (h_unmap : q.bhs.getCdb.opcode = .unmap) {k : ℕ}
    (h_len : q.data.length = 8 + 16 * k) :
    ∃ s' p, serve T fuel c q = .ok (({ c with scsi := s' } : Conn β).emit T (.scsiResponse p)) ∧
      (UnmapTruth T medium (Scsi.unmapDescriptors (q.data.drop 8)) c.scsi s' p ↔
        (∀ d ∈ Scsi.unmapDescriptors (q.data.drop 8), c.scsi.Checkable T d) ∨
          ∃ x ∈ Scsi.reached T (c.receive q).scsi (Scsi.unmapDescriptors (q.data.drop 8)),
            x.Refused T ∨ x.Trims T ∧ (x.trimmed T).1 ≠ .ok) := by
  have h_serve := serve_unmap (T := T) fuel c hop h_unmap h_len
  generalize Scsi.unmapDescriptors (q.data.drop 8) = ds at h_serve ⊢
  have h_run := Scsi.unmaps_unmapList (T := T) { scsi := (c.receive q).scsi } ds
  dsimp only at h_serve h_run
  generalize Scsi.unmapList T { scsi := (c.receive q).scsi } ds = u at h_serve h_run
  refine ⟨u.scsi, _, h_serve, ?_⟩
  have h_sense := Scsi.unmapSense_eq_nil_iff u
  rw [h_run.good_iff rfl rfl] at h_sense
  have h_status : (if Scsi.unmapSense u = errorReservationConflict1 then some (0x18 : UInt8)
      else none) ≠ some 0 := by
    split <;> simp
  have h_good := status_eq_zero_iff (T := T) q.bhs (Scsi.unmapSense u) none h_status
  have h_data := data_ne_nil_iff (T := T) q.bhs (Scsi.unmapSense u) none
    (if Scsi.unmapSense u = errorReservationConflict1 then some 0x18 else none)
  -- either the answer is GOOD, or a descriptor was refused or failed
  by_cases h_nil : Scsi.unmapSense u = []
  · have h_all := h_sense.mp h_nil
    constructor
    · intro h_truth
      refine .inl fun d hd => .inl ?_
      have h_valid := (h_truth.valid (h_good.mpr h_nil) d hd).1
      omega
    · rintro (h_check | ⟨x, hx, h_bad⟩)
      · obtain ⟨h_valid, h_blocks⟩ := h_run.cleared hB h_check h_all
        refine ⟨fun _ => h_valid, fun _ b h_in => ?_, fun _ b h_not => ?_, fun ⟨d, hd, h_inv⟩ => ?_⟩
        · rw [List.eq_replicate_iff]
          refine ⟨Medium.length_slice _ _ _, fun v hv => ?_⟩
          obtain ⟨i, hi, rfl⟩ := List.mem_map.mp hv
          exact (h_blocks b i (List.mem_range.mp hi)).1 h_in
        · refine List.map_congr_left fun i hi => ?_
          exact (h_blocks b i (List.mem_range.mp hi)).2 h_not
        · exact absurd (h_valid d hd) h_inv
      · rcases h_bad with h_ref | ⟨h_trims, h_fail⟩
        · exact absurd h_ref (h_all x hx).1
        · exact absurd ((h_all x hx).2 h_trims) h_fail
  · have h_bad := mt h_sense.mpr h_nil
    push Not at h_bad
    obtain ⟨x, hx, h_x⟩ := h_bad
    refine iff_of_true ⟨fun h => absurd (h_good.mp h) h_nil, fun h => absurd (h_good.mp h) h_nil,
      fun h => absurd (h_good.mp h) h_nil, fun _ => h_data.mpr h_nil⟩ (.inr ⟨x, hx, ?_⟩)
    by_cases h_ref : x.Refused T
    · exact .inl h_ref
    · exact .inr (h_x h_ref)

/-- A connection to a device of `size` blocks that is full of ones. -/
def Sample.onesConn (size : UInt64) : Conn Ram :=
  { scsi := Sample.ones [], ses := newSession (Sample.target size) }

/-- An UNMAP of small ranges. -/
def Sample.unmapCommand (ranges : List (UInt8 × UInt8))
    (h : (Sample.parameterList ranges).length < 2 ^ 24 := by decide) : Pdu :=
  Sample.command 5 0 (Sample.cdb10 0x42 0 0 0) (Sample.parameterList ranges) h

/-- Two ranges that overlap, inside a device of eight blocks. The answer is
GOOD, and all their blocks are zero. -/
theorem unmapTruth_overlapping :
    ∃ s' p, serve (Sample.target 8) 0 (Sample.onesConn 8) (Sample.unmapCommand [(2, 3), (4, 2)]) =
        .ok (({ Sample.onesConn 8 with scsi := s' } : Conn Ram).emit (Sample.target 8)
          (.scsiResponse p)) ∧
      UnmapTruth (Sample.target 8) Ram.contents
        (Scsi.unmapDescriptors ((Sample.unmapCommand [(2, 3), (4, 2)]).data.drop 8))
        (Sample.onesConn 8).scsi s' p := by
  obtain ⟨s', p, h_serve, h_iff⟩ :=
    unmapTruth_iff (T := Sample.target 8) (ramBackend_stores 16 (by decide) (by decide) 8) 0
      (Sample.onesConn 8) (q := Sample.unmapCommand [(2, 3), (4, 2)]) (k := 2)
      (by decide +kernel) (by decide +kernel) (by decide +kernel)
  refine ⟨s', p, h_serve, h_iff.mpr (.inl fun d hd => ?_)⟩
  have h_ds : Scsi.unmapDescriptors ((Sample.unmapCommand [(2, 3), (4, 2)]).data.drop 8) =
      [(2, 3), (4, 2)] := by decide +kernel
  rw [h_ds, List.mem_pair] at hd
  rcases hd with rfl | rfl
  · decide +kernel
  · decide +kernel

/-- Ten blocks of a device of five: the answer is GOOD. The subtraction in
`validate_request` has wrapped around. -/
theorem unmapTruth_fails :
    ∃ s' p, serve (Sample.target 5) 0 (Sample.onesConn 5) (Sample.unmapCommand [(0, 10)]) =
        .ok (({ Sample.onesConn 5 with scsi := s' } : Conn Ram).emit (Sample.target 5)
          (.scsiResponse p)) ∧
      p.status = 0 ∧ ¬ UnmapTruth (Sample.target 5) Ram.contents
        (Scsi.unmapDescriptors ((Sample.unmapCommand [(0, 10)]).data.drop 8))
        (Sample.onesConn 5).scsi s' p := by
  have h_serve := serve_unmap (T := Sample.target 5) 0 (Sample.onesConn 5)
    (q := Sample.unmapCommand [(0, 10)]) (k := 1)
    (by decide +kernel) (by decide +kernel) (by decide +kernel)
  dsimp only at h_serve
  refine ⟨_, _, h_serve, by decide +kernel, fun h => ?_⟩
  have h_valid := h.valid (by decide +kernel) (0, 10) (by decide +kernel)
  exact absurd h_valid.1 (by decide +kernel)

end IscsiTarget
