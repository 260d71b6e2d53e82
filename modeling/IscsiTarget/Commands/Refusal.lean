import IscsiTarget.Commands.Unmap
import IscsiTarget.Lib.Run

/-!
# Commands that are refused

A command that comes back with ILLEGAL REQUEST is to leave the medium as it was. Every
handler but one checks its parameters before it goes to the backend, and returns with
ILLEGAL REQUEST only from there (`send_of_illegal`). UNMAP checks one descriptor at a time
and executes it at once, so a refused descriptor does not stop the others.

`illegalRequest_iff` says when that matters: when a descriptor that is executed changes the
medium. The one assumption about the backend, for the direction that needs it, is that
trimming brings zeros to the medium and nothing else (`Target.Erases`). What it takes for a
descriptor to change nothing is a matter of the reservation, of what its range holds and of
the calls that fail (`Meeting.leaves_iff`).
-/

namespace IscsiTarget

variable {β : Type}

/-- The sense key, in the fixed or in the descriptor format of sense data. -/
def senseKey (sense : Bytes) : Option UInt8 :=
  if sense.headD 0 &&& 0x7f < 0x72 then sense[2]?.map (· &&& 0x0f)
  else sense[1]?.map (· &&& 0x0f)

/-- The sense data says ILLEGAL REQUEST. -/
def IllegalRequest (sense : Bytes) : Prop := senseKey sense = some 0x05

instance (sense : Bytes) : Decidable (IllegalRequest sense) :=
  inferInstanceAs (Decidable (_ = _))

/-- A trim, and a write of a block of zeros, bring zeros to the medium and
nothing else, whether they succeed or not. -/
structure Target.Erases (T : Target β) (medium : β → Medium UInt8) : Prop where
  trim : ∀ d blockNr n p,
    medium (T.backend.trim d blockNr n).2 p = medium d p ∨
      medium (T.backend.trim d blockNr n).2 p = 0
  write : ∀ d blockNr p,
    medium (T.backend.write d blockNr 1 (List.replicate T.blockSize 0)).2 p = medium d p ∨
      medium (T.backend.write d blockNr 1 (List.replicate T.blockSize 0)).2 p = 0

/-- Executing the descriptor leaves the medium as it is. -/
def Meeting.Leaves (T : Target β) (medium : β → Medium UInt8) (x : Meeting β) : Prop :=
  medium (x.trimmed T).2.disk = medium x.scsi.disk

/-- Everywhere in its range there are zeros when the descriptor is met. -/
def Meeting.Zeros (T : Target β) (medium : β → Medium UInt8) (x : Meeting β) : Prop :=
  ∀ p, x.lba.toNat * T.blockSize ≤ p → p < x.lba.toNat * T.blockSize + x.n.toNat * T.blockSize →
    medium x.scsi.disk p = 0

/-- **A descriptor inside the device leaves the medium as it is** when another
session has the reservation, when its range is zeros already, or when its trim
fails without effect. -/
theorem Meeting.leaves_iff {T : Target β} {medium : β → Medium UInt8}
    (hB : T.backend.Stores medium) {x : Meeting β}
    (h_in : T.backend.InRange x.scsi.disk x.lba x.n) :
    x.Leaves T medium ↔ x.scsi.lockingStatus T = .lockedOther ∨
      (if (x.trimmed T).1 = .ok then x.Zeros T medium
        else medium (x.trimmed T).2.disk = medium x.scsi.disk) := by
  by_cases h_locked : x.scsi.lockingStatus T = .lockedOther
  · -- nothing is called
    have h_same : (x.trimmed T).2 = x.scsi := by
      rw [Meeting.trimmed, Scsi.trim, if_neg (not_not.mpr h_locked)]
    exact iff_of_true (by rw [Meeting.Leaves, h_same]) (.inl h_locked)
  · rw [or_iff_right h_locked]
    split
    · next h_ok => rw [Meeting.Leaves, Meeting.trimmed, (Scsi.medium_trim hB h_in h_ok).1,
        Medium.clear_eq_self_iff, Meeting.Zeros]
    · exact Iff.rfl

/-- The executed descriptors of an UNMAP leave the medium as it is. -/
def UnmapsNothing (T : Target β) (medium : β → Medium UInt8) (s : Scsi β) (cdb : Cdb)
    (data : Bytes) : Prop :=
  cdb.opcode = .unmap → ∀ x ∈ Scsi.reached T s (Scsi.unmapDescriptors (data.drop 8)),
    x.Trims T → x.Leaves T medium

theorem not_illegalRequest_nil : ¬ IllegalRequest [] := by decide

theorem not_illegalRequest_writeError : ¬ IllegalRequest errorWriteError := by decide

theorem not_illegalRequest_miscompare : ¬ IllegalRequest errorMiscompare := by decide

theorem not_illegalRequest_conflict : ¬ IllegalRequest errorReservationConflict1 := by decide

namespace Scsi

variable {T : Target β} {s : Scsi β} {cdb : Cdb} {data : Bytes} {medium : β → Medium UInt8}

/-! ### The handlers that write -/

/-- A WRITE that is refused has not been started. The only sense data with that
key comes from the check in front. -/
theorem writeVerify_of_illegal (h : IllegalRequest (s.writeVerify T cdb data).1.senseData) :
    (s.writeVerify T cdb data).2 = s := by
  unfold writeVerify at h ⊢
  generalize cdb.range = range at h ⊢
  obtain ⟨lba, n⟩ := range
  dsimp only at h ⊢
  -- refused by the check, before anything is stored
  cases h_check : s.validateRequest T lba n (some cdb) with
  | some sense => rfl
  | none =>
    rw [h_check] at h
    dsimp only at h
    split at h
    · -- past the check the sense data is that of a failed write
      generalize s.storeImmediate T lba n data = stored at h
      obtain ⟨rc, s'⟩ := stored
      cases rc with
      | ok =>
        dsimp only at h
        split at h
        · exact absurd h not_illegalRequest_nil
        · exact absurd h not_illegalRequest_nil
      | failRw => exact absurd h not_illegalRequest_writeError
      | failLocked => exact absurd h not_illegalRequest_conflict
      | failGeneral => exact absurd h not_illegalRequest_nil
      | failMismatch => exact absurd h not_illegalRequest_nil
    · split at h
      · exact absurd h not_illegalRequest_nil
      · exact absurd h not_illegalRequest_nil

/-- A COMPARE AND WRITE that is refused has not been started. A block that
differs has another sense key. -/
theorem compareAndWrite_of_illegal {r : ScsiResponse} {s' : Scsi β}
    (h : s.compareAndWrite T cdb data = .ok (r, s')) (h_key : IllegalRequest r.senseData) :
    s' = s := by
  unfold compareAndWrite at h
  dsimp only at h
  -- the two refusals come before the backend is called; what the call returns has another sense key
  split at h
  · obtain ⟨rfl, rfl⟩ := Prod.mk.inj (Except.ok.inj h)
    rfl
  · split at h
    · obtain ⟨rfl, rfl⟩ := Prod.mk.inj (Except.ok.inj h)
      rfl
    · split at h
      · exact nomatch h
      · split at h
        · obtain ⟨rfl, rfl⟩ := Prod.mk.inj (Except.ok.inj h)
          exact absurd h_key not_illegalRequest_nil
        · obtain ⟨rfl, rfl⟩ := Prod.mk.inj (Except.ok.inj h)
          exact absurd h_key not_illegalRequest_conflict
        · obtain ⟨rfl, rfl⟩ := Prod.mk.inj (Except.ok.inj h)
          exact absurd h_key not_illegalRequest_miscompare
        · obtain ⟨rfl, rfl⟩ := Prod.mk.inj (Except.ok.inj h)
          exact absurd h_key not_illegalRequest_writeError
        · obtain ⟨rfl, rfl⟩ := Prod.mk.inj (Except.ok.inj h)
          exact absurd h_key not_illegalRequest_nil

/-- What `write_same` says once its loop is through is not ILLEGAL REQUEST: a
write error, a conflict, or nothing. -/
theorem not_illegalRequest_writeSameDone {response : ScsiResponse} (h : response.senseData = [])
    (r : RwResult × Scsi β) : ¬ IllegalRequest (writeSameDone response r).1.senseData := by
  obtain ⟨rc, s'⟩ := r
  have h_nil : ¬ IllegalRequest response.senseData := by
    rw [h]
    exact not_illegalRequest_nil
  -- a write error and a conflict have other sense keys, and the rest says nothing
  cases rc with
  | ok => exact h_nil
  | failRw => exact not_illegalRequest_writeError
  | failLocked => exact not_illegalRequest_conflict
  | failGeneral => exact h_nil
  | failMismatch => exact h_nil

/-- A WRITE SAME that is refused has not been started. Its two checks come
before the loop, and what the loop ends with has other sense keys. -/
theorem writeSame_of_illegal {fuel : ℕ} {r : ScsiResponse} {s' : Scsi β}
    (h : s.writeSame T fuel cdb data = .ok (r, s')) (h_key : IllegalRequest r.senseData) :
    s' = s := by
  unfold writeSame at h
  generalize cdb.range = range at h
  obtain ⟨lba, n⟩ := range
  dsimp only at h
  -- the refusals come first; the sense data of the two loops has another key
  split at h
  · obtain ⟨rfl, rfl⟩ := Prod.mk.inj (Except.ok.inj h)
    rfl
  · split at h
    · split at h
      · obtain ⟨rfl, rfl⟩ := Prod.mk.inj (Except.ok.inj h)
        rfl
      · split at h
        · split at h
          · obtain ⟨rfl, rfl⟩ := Prod.mk.inj (Except.ok.inj h)
            rfl
          · -- the loop up to the end of the device
            cases h_loop : writeSameToEnd T (cdb[1] &&& 8 != 0) data fuel lba s with
            | error f =>
              rw [h_loop] at h
              exact nomatch h
            | ok result =>
              rw [h_loop] at h
              have h_r : (writeSameDone _ result).1 = r := congrArg Prod.fst (Except.ok.inj h)
              rw [← h_r] at h_key
              exact absurd h_key (not_illegalRequest_writeSameDone rfl result)
        · have h_r : (writeSameDone _ _).1 = r := congrArg Prod.fst (Except.ok.inj h)
          rw [← h_r] at h_key
          exact absurd h_key (not_illegalRequest_writeSameDone rfl _)
    · split at h
      · obtain ⟨rfl, rfl⟩ := Prod.mk.inj (Except.ok.inj h)
        rfl
      · obtain ⟨rfl, rfl⟩ := Prod.mk.inj (Except.ok.inj h)
        rfl

theorem disk_reserve (s : Scsi β) : (s.reserve T).2.disk = s.disk := by
  unfold reserve
  split
  · unfold reserveDevice
    rw [if_pos ‹_›]
    cases s.lockedBy with
    | none => rfl
    | some id =>
      by_cases h_id : id = T.thread
      · simp [h_id]
      · simp [h_id]
  · rfl

theorem disk_release (s : Scsi β) : (s.release T).2.disk = s.disk := by
  unfold release
  split
  · unfold unlockDevice
    rw [if_pos ‹_›]
    cases s.lockedBy with
    | none => rfl
    | some id =>
      by_cases h_id : id = T.thread
      · simp [h_id]
      · simp [h_id]
  · rfl

/-- **Past UNMAP**, a command that is refused has not been started. The other
handlers check everything before they call the backend. -/
theorem send_of_illegal {fuel : ℕ} {lun : UInt64} {r : ScsiResponse} {s' : Scsi β}
    (h : s.send T fuel lun cdb data = .ok (r, s')) (h_key : IllegalRequest r.senseData)
    (hop : cdb.opcode ≠ .unmap) : s'.disk = s.disk := by
  unfold send at h
  split at h
  case h_6 | h_7 | h_8 | h_9 | h_10 =>
    have h_r : (s.writeVerify T cdb data).1 = r := congrArg Prod.fst (Except.ok.inj h)
    have h_s : (s.writeVerify T cdb data).2 = s' := congrArg Prod.snd (Except.ok.inj h)
    rw [← h_s, writeVerify_of_illegal (h_r ▸ h_key)]
  case h_15 =>
    have h_r : (s.syncCache T).1 = r := congrArg Prod.fst (Except.ok.inj h)
    rw [← h_r] at h_key
    exact absurd h_key not_illegalRequest_nil
  case h_18 => rw [compareAndWrite_of_illegal h h_key]
  case h_21 =>
    have h_s : (s.reserve T).2 = s' := congrArg Prod.snd (Except.ok.inj h)
    rw [← h_s]
    exact disk_reserve s
  case h_22 =>
    have h_s : (s.release T).2 = s' := congrArg Prod.snd (Except.ok.inj h)
    rw [← h_s]
    exact disk_release s
  case h_23 h_op => exact absurd h_op hop
  case h_24 | h_25 => rw [writeSame_of_illegal h h_key]
  -- the others do not go to the backend at all
  all_goals
    have h_s : s = s' := congrArg Prod.snd (Except.ok.inj h)
    rw [h_s]

/-! ### UNMAP -/

/-- The state an UNMAP leaves is that of its loop. -/
theorem unmap_eq_ok {r : ScsiResponse} {s' : Scsi β} (h : s.unmap T data = .ok (r, s')) :
    s' = (unmapList T { scsi := s } (unmapDescriptors (data.drop 8))).scsi := by
  unfold unmap at h
  cases h_loop : unmapLoop T data.length { scsi := s } (data.drop 8) with
  | error f =>
    rw [h_loop] at h
    exact nomatch h
  | ok u =>
    rw [h_loop] at h
    rw [← unmapLoop_eq_ok h_loop]
    exact (congrArg Prod.snd (Except.ok.inj h)).symm

/-- What is erased by one function, and by another after it. -/
theorem erased_trans {d₁ d₂ d₃ : β}
    (h₁ : ∀ p, medium d₂ p = medium d₁ p ∨ medium d₂ p = 0)
    (h₂ : ∀ p, medium d₃ p = medium d₂ p ∨ medium d₃ p = 0) :
    ∀ p, medium d₃ p = medium d₁ p ∨ medium d₃ p = 0 := by
  intro p
  rcases h₂ p with h | h
  · rw [h]
    exact h₁ p
  · exact .inr h

/-- Writing a block of zeros erases. -/
theorem erased_write (hE : T.Erases medium) (s : Scsi β) (blockNr : UInt64) (p : ℕ) :
    medium (s.write T blockNr 1 (List.replicate T.blockSize 0)).2.disk p = medium s.disk p ∨
      medium (s.write T blockNr 1 (List.replicate T.blockSize 0)).2.disk p = 0 := by
  by_cases hl : s.lockingStatus T = .lockedOther
  · rw [write_of_locked hl]
    exact .inl rfl
  · rw [write_of_unlocked hl, afterCall_disk]
    unfold writeBackend
    split
    · exact hE.trim s.disk blockNr 1 p
    · exact hE.write s.disk blockNr p

theorem erased_writeZeros (hE : T.Erases medium) (k : ℕ) (blockNr : UInt64) (s : Scsi β) (p : ℕ) :
    medium (writeZeros T k blockNr s).2.disk p = medium s.disk p ∨
      medium (writeZeros T k blockNr s).2.disk p = 0 := by
  -- each of the writes erases, also one that fails half-way
  induction k generalizing blockNr s p with
  | zero => exact .inl rfl
  | succ k ih =>
    have h_first := erased_write hE s blockNr
    unfold writeZeros
    generalize s.write T blockNr 1 (List.replicate T.blockSize 0) = first at h_first
    obtain ⟨rc, s'⟩ := first
    cases rc with
    | ok => exact erased_trans h_first (fun p => ih (blockNr + 1) s' p) p
    | failRw => exact h_first p
    | failLocked => exact h_first p
    | failGeneral => exact h_first p
    | failMismatch => exact h_first p

/-- **A trim erases**, at every trim level. -/
theorem erased_trim (hE : T.Erases medium) (s : Scsi β) (blockNr : UInt64) (n : UInt32) (p : ℕ) :
    medium (s.trim T blockNr n).2.disk p = medium s.disk p ∨
      medium (s.trim T blockNr n).2.disk p = 0 := by
  unfold trim
  split
  · split
    · exact erased_writeZeros hE n.toNat blockNr s p
    · exact hE.trim s.disk blockNr n p
  · exact .inl rfl

variable {u u' : UnmapState β} {ds : List (UInt64 × UInt32)} {xs : List (Meeting β)}

/-- Descriptors that leave the medium, one after the other. -/
theorem Unmaps.medium_eq (h : Unmaps T u ds xs u')
    (h_all : ∀ x ∈ xs, x.Trims T → x.Leaves T medium) :
    medium u'.scsi.disk = medium u.scsi.disk := by
  induction h with
  | done u => rfl
  | refused h h_sense rest ih => exact ih (List.forall_mem_cons.mp h_all).2
  | trimmed h h_ok rest ih =>
    obtain ⟨h_first, h_rest⟩ := List.forall_mem_cons.mp h_all
    exact (ih h_rest).trans (h_first h)
  | failed h h_fail => exact h_all _ List.mem_cons_self h
  | empty h_taken h rest ih => exact ih (List.forall_mem_cons.mp h_all).2

/-- The loop erases: whatever it comes to, a byte of the medium is what it was,
or zero. By induction over the run of the loop. -/
theorem Unmaps.erased (hE : T.Erases medium) (h : Unmaps T u ds xs u') (p : ℕ) :
    medium u'.scsi.disk p = medium u.scsi.disk p ∨ medium u'.scsi.disk p = 0 := by
  -- on the descriptors that were executed
  induction h with
  | done u => exact .inl rfl
  | refused h h_sense rest ih => exact ih
  | @trimmed u u' d ds xs h h_ok rest ih =>
    rcases ih with h_eq | h_zero
    · rw [h_eq]
      exact erased_trim hE u.scsi d.1 d.2 p
    · exact .inr h_zero
  | @failed u d ds h h_fail => exact erased_trim hE u.scsi d.1 d.2 p
  | empty h_taken h rest ih => exact ih

/-- **A medium that is the same in the end has been the same all the time**:
what is erased does not come back. -/
theorem Unmaps.leaves (hE : T.Erases medium) (h : Unmaps T u ds xs u')
    (h_same : medium u'.scsi.disk = medium u.scsi.disk) :
    ∀ x ∈ xs, x.Trims T → x.Leaves T medium := by
  induction h with
  | done u => simp
  | refused h h_sense rest ih =>
    exact List.forall_mem_cons.mpr ⟨fun h' => absurd h h'.1, ih h_same⟩
  | @trimmed u u' d ds xs h h_ok rest ih =>
    have h_first : medium (u.scsi.trim T d.1 d.2).2.disk = medium u.scsi.disk := by
      funext p
      rcases erased_trim hE u.scsi d.1 d.2 p with h_eq | h_zero
      · exact h_eq
      · -- erased here, so zero in the end, and so zero at the start
        rcases rest.erased hE p with h_end | h_end
        · rw [← h_same, h_end]
        · rw [h_zero, ← h_same, h_end]
    exact List.forall_mem_cons.mpr ⟨fun _ => h_first, ih (h_same.trans h_first.symm)⟩
  -- the loop ends here, so this trim has changed nothing either
  | failed h h_fail =>
    rw [List.forall_mem_singleton]
    exact fun _ => h_same
  | empty h_taken h rest ih => exact List.forall_mem_cons.mpr ⟨fun h' => absurd h' h, ih h_same⟩

end Scsi

/-- **A command that comes back with ILLEGAL REQUEST** leaves the medium as it
was, if it is an UNMAP whose executed descriptors change nothing, or no UNMAP at
all. With a backend that does not bring anything but zeros to the medium when it
trims, there is no other way. -/
theorem illegalRequest_iff {T : Target β} (medium : β → Medium UInt8) {fuel : ℕ} {s s' : Scsi β}
    {lun : UInt64} {cdb : Cdb} {data : Bytes} {r : ScsiResponse}
    (h : s.send T fuel lun cdb data = .ok (r, s')) (h_key : IllegalRequest r.senseData) :
    (UnmapsNothing T medium s cdb data → medium s'.disk = medium s.disk) ∧
      (T.Erases medium → medium s'.disk = medium s.disk → UnmapsNothing T medium s cdb data) := by
  -- only an UNMAP can be refused after something has been done
  by_cases hop : cdb.opcode = .unmap
  · have h_unmap : s.unmap T data = .ok (r, s') := by
      rw [← h, Scsi.send, hop]
    have h_run := Scsi.unmaps_unmapList (T := T) { scsi := s }
      (Scsi.unmapDescriptors (data.drop 8))
    rw [Scsi.unmap_eq_ok h_unmap]
    exact ⟨fun h_nothing => h_run.medium_eq (h_nothing hop), fun hE h_same _ =>
      h_run.leaves hE h_same⟩
  · refine ⟨fun _ => ?_, fun _ _ h' => absurd h' hop⟩
    rw [Scsi.send_of_illegal h h_key hop]

/-- The medium of ones, with the outcomes of the next backend calls. -/
def Sample.ones (script : List Bool) : Scsi Ram :=
  { disk := { contents := fun _ => 1, script := script } }

/-- The parameter list of an UNMAP: a header and descriptors for small ranges. -/
def Sample.parameterList (ranges : List (UInt8 × UInt8)) : Bytes :=
  zeros 8 ++ ranges.flatMap fun r => [0, 0, 0, 0, 0, 0, 0, r.1, 0, 0, 0, r.2, 0, 0, 0, 0]

/-- A call of the backend in memory has its effect or none. -/
theorem Ram.contents_call (r : Ram) (effect : Medium UInt8) :
    (r.call effect).2.contents = effect ∨ (r.call effect).2.contents = r.contents := by
  by_cases h : r.script.headD true = true
  · exact .inl (if_pos h)
  · exact .inr (if_neg h)

/-- The backend in memory erases: a trim leaves zeros, and so does a write of
zeros, as far as they get. -/
theorem ramBackend_erases (size : UInt64) : (Sample.target size).Erases Ram.contents where
  trim d blockNr n p := by
    -- the call clears the range, or fails and leaves everything
    rcases d.contents_call (d.contents.clear (blockNr.toNat * 16) (n.toNat * 16)) with h | h
    · by_cases h_in : blockNr.toNat * 16 ≤ p ∧ p < blockNr.toNat * 16 + n.toNat * 16
      · exact .inr ((congrFun h p).trans (if_pos h_in))
      · exact .inl ((congrFun h p).trans (if_neg h_in))
    · exact .inl (congrFun h p)
  write d blockNr p := by
    have h_zeros : ((List.replicate 16 0).take ((1 : UInt32).toNat * 16) : Bytes) =
        List.replicate 16 0 := rfl
    -- the same for zeros that are written
    rcases d.contents_call (d.contents.store (blockNr.toNat * 16)
      ((List.replicate 16 0).take ((1 : UInt32).toNat * 16))) with h | h
    · rw [h_zeros] at h
      by_cases h_in : p < blockNr.toNat * 16 ∨
          blockNr.toNat * 16 + (List.replicate 16 (0 : UInt8)).length ≤ p
      · exact .inl ((congrFun h p).trans (Medium.store_apply_of_notMem h_in))
      · obtain ⟨i, rfl⟩ : ∃ i, p = blockNr.toNat * 16 + i :=
          ⟨p - blockNr.toNat * 16, by omega⟩
        have h_i : i < (List.replicate 16 (0 : UInt8)).length := by omega
        refine .inr ((congrFun h _).trans ?_)
        rw [Medium.store_apply_of_lt h_i, List.getElem_replicate]
    · exact .inl (congrFun h p)

/-- A list whose one descriptor is out of range: nothing is executed. That can
be told from the medium as well. -/
theorem illegalRequest_outOfRange :
    ∃ r s', (Sample.ones []).send (Sample.target 8) 0 1 (Sample.cdb10 0x42 0 0 0)
        (Sample.parameterList [(100, 1)]) = .ok (r, s') ∧
      IllegalRequest r.senseData ∧ Ram.contents s'.disk = Ram.contents (Sample.ones []).disk ∧
      UnmapsNothing (Sample.target 8) Ram.contents (Sample.ones []) (Sample.cdb10 0x42 0 0 0)
        (Sample.parameterList [(100, 1)]) := by
  have h_eval : ((Sample.ones []).send (Sample.target 8) 0 1 (Sample.cdb10 0x42 0 0 0)
      (Sample.parameterList [(100, 1)])).toOption.any
      (fun r => decide (IllegalRequest r.1.senseData)) = true := by decide +kernel
  obtain ⟨⟨r, s'⟩, h_send, h_key⟩ := Machine.exists_ok_of_any h_eval
  obtain ⟨h_enough, h_only⟩ := illegalRequest_iff Ram.contents h_send h_key
  have h_none : ∀ x ∈ Scsi.reached (Sample.target 8) (Sample.ones [])
      (Scsi.unmapDescriptors ((Sample.parameterList [(100, 1)]).drop 8)),
      ¬ x.Trims (Sample.target 8) := by decide +kernel
  have h_same : Ram.contents s'.disk = Ram.contents (Sample.ones []).disk :=
    h_enough fun _ x hx h => absurd h (h_none x hx)
  exact ⟨r, s', h_send, h_key, h_same, h_only (ramBackend_erases 8) h_same⟩

/-- The first descriptor is executed, the second one is refused, and the sense
data is that of the second one. -/
theorem illegalRequest_half_done :
    ∃ r s', (Sample.ones []).send (Sample.target 8) 0 1 (Sample.cdb10 0x42 0 0 0)
        (Sample.parameterList [(2, 1), (100, 1)]) = .ok (r, s') ∧
      IllegalRequest r.senseData ∧ Ram.contents s'.disk ≠ Ram.contents (Sample.ones []).disk := by
  have h_eval : ((Sample.ones []).send (Sample.target 8) 0 1 (Sample.cdb10 0x42 0 0 0)
      (Sample.parameterList [(2, 1), (100, 1)])).toOption.any
      (fun r => decide (IllegalRequest r.1.senseData ∧ r.2.disk.contents 32 = 0)) = true := by
    decide +kernel
  obtain ⟨⟨r, s'⟩, h_send, h_key, h_zero⟩ := Machine.exists_ok_of_any h_eval
  refine ⟨r, s', h_send, h_key, fun h_same => ?_⟩
  have h_one := congrFun h_same 32
  rw [h_zero] at h_one
  exact absurd h_one (by decide)

end IscsiTarget
