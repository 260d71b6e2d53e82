import IscsiTarget.Model.Sessions
import IscsiTarget.Emit

/-!
# A session that is locked out

While another session has the reservation, none of the functions of `scsi` gets to the
backend: `sync`, `write`, `trim`, `read` and `cmpwrite` ask for the reservation first, and
nothing else calls the backend but for its size. So the session could as well have any other
backend of that size behind it.

`Scsi.Shut` says so of a function of `scsi`: with another backend state it returns the same,
and leaves that state as it is. From it, `serve_withDisk` is the same for a whole PDU, which
may send answers and move the session on.
-/

namespace IscsiTarget

variable {β α : Type} {T : Target β}

namespace Scsi

variable {s : Scsi β} {d : β}

/-! ### The reservation -/

theorem threads_of_locked (h : s.lockingStatus T = .lockedOther) : T.build.threads = true := by
  unfold lockingStatus at h
  split at h
  · assumption
  · -- without threads the answer is `notLocked`
    cases h

/-- The reservation is another thread's. It is what `locking_status` compares. -/
theorem lockedBy_of_locked (h : s.lockingStatus T = .lockedOther) :
    ∃ id, s.lockedBy = some id ∧ id ≠ T.thread := by
  have h_threads := threads_of_locked h
  rw [lockingStatus, if_pos h_threads] at h
  cases h_by : s.lockedBy with
  | none =>
    rw [h_by] at h
    cases h
  | some id =>
    rw [h_by] at h
    refine ⟨id, rfl, fun h_eq => ?_⟩
    rw [h_eq] at h
    simp at h

theorem reserveDevice_of_locked (h : s.lockingStatus T = .lockedOther) :
    s.reserveDevice T = (.lockedOther, s) := by
  obtain ⟨id, h_by, h_ne⟩ := lockedBy_of_locked h
  rw [reserveDevice, if_pos (threads_of_locked h), h_by]
  exact if_neg h_ne

theorem unlockDevice_of_locked (h : s.lockingStatus T = .lockedOther) :
    s.unlockDevice T = (false, s) := by
  obtain ⟨id, h_by, h_ne⟩ := lockedBy_of_locked h
  rw [unlockDevice, if_pos (threads_of_locked h), h_by]
  exact if_neg h_ne

theorem trim_of_locked (h : s.lockingStatus T = .lockedOther) (blockNr : UInt64) (n : UInt32) :
    s.trim T blockNr n = (.failLocked, s) := by
  simp [trim, h]

theorem cmpwrite_of_locked (h : s.lockingStatus T = .lockedOther) (blockNr : UInt64) (n : UInt32)
    (dataWrite dataCompare : Bytes) :
    s.cmpwrite T blockNr n dataWrite dataCompare = (.failLocked, s) := by
  simp [cmpwrite, h]

/-! ### Another backend state -/

/-- The same, with another backend state. -/
def withDisk (s : Scsi β) (d : β) : Scsi β := { s with disk := d }

@[simp] theorem withDisk_disk (s : Scsi β) : s.withDisk s.disk = s := rfl

@[simp] theorem disk_withDisk : (s.withDisk d).disk = d := rfl

@[simp] theorem lockingStatus_withDisk : (s.withDisk d).lockingStatus T = s.lockingStatus T := rfl

@[simp] theorem history_withDisk : (s.withDisk d).history = s.history := rfl

@[simp] theorem lockedBy_withDisk : (s.withDisk d).lockedBy = s.lockedBy := rfl

variable (T) in
/-- A device of the same size. -/
def SameSize (s : Scsi β) (d : β) : Prop :=
  T.backend.getSizeInBlocks d = T.backend.getSizeInBlocks s.disk

theorem SameSize.eq (h : s.SameSize T d) :
    (s.withDisk d).getSizeInBlocks T = s.getSizeInBlocks T := h

theorem SameSize.validateRequest (h : s.SameSize T d) (lba : UInt64) (n : UInt32)
    (cdb : Option Cdb) :
    (s.withDisk d).validateRequest T lba n cdb = s.validateRequest T lba n cdb := by
  unfold Scsi.validateRequest
  rw [h.eq]

variable (T) in
/-- As long as another session has the reservation, `f` leaves everything as it
is, and returns the same for every backend state of the same size. Both are said
by one equation, at the state itself and at another. -/
def Shut (f : Scsi β → α × Scsi β) : Prop :=
  ∀ (s : Scsi β) (d : β), s.lockingStatus T = .lockedOther → s.SameSize T d →
    f (s.withDisk d) = ((f s).1, s.withDisk d)

variable (T) in
/-- The same for a function that may fault. -/
def ShutE (f : Scsi β → Except Fault (α × Scsi β)) : Prop :=
  ∀ (s : Scsi β) (d : β), s.lockingStatus T = .lockedOther → s.SameSize T d →
    f (s.withDisk d) = (f s).map fun x => (x.1, s.withDisk d)

/-- Nothing is changed. -/
theorem Shut.eq {f : Scsi β → α × Scsi β} (h : Shut T f) (hl : s.lockingStatus T = .lockedOther) :
    f s = ((f s).1, s) := h s s.disk hl rfl

theorem ShutE.eq {f : Scsi β → Except Fault (α × Scsi β)} (h : ShutE T f)
    (hl : s.lockingStatus T = .lockedOther) : f s = (f s).map fun x => (x.1, s) :=
  h s s.disk hl rfl

/-- The same result in both states. -/
theorem Shut.both {f : Scsi β → α × Scsi β} (h : Shut T f) (hl : s.lockingStatus T = .lockedOther)
    (hd : s.SameSize T d) : ∃ a, f s = (a, s) ∧ f (s.withDisk d) = (a, s.withDisk d) :=
  ⟨(f s).1, h.eq hl, h s d hl hd⟩

theorem ShutE.both {f : Scsi β → Except Fault (α × Scsi β)} (h : ShutE T f)
    (hl : s.lockingStatus T = .lockedOther) (hd : s.SameSize T d) :
    ∃ r : Except Fault α, f s = r.map (fun a => (a, s)) ∧
      f (s.withDisk d) = r.map fun a => (a, s.withDisk d) := by
  refine ⟨(f s).map Prod.fst, ?_, ?_⟩
  · -- what it returns here is, by `eq`, all that it does here
    have h_eq := h.eq hl
    cases h_f : f s with
    | error e => rfl
    | ok x =>
      rw [h_f] at h_eq
      exact h_eq
  · -- and there it returns the same
    rw [h s d hl hd]
    cases f s <;> rfl

theorem Shut.toShutE {f : Scsi β → α × Scsi β} (h : Shut T f) : ShutE T fun s => .ok (f s) :=
  fun s d hl hd => congrArg Except.ok (h s d hl hd)

/-- A function that returns `a` and does nothing. -/
theorem shut_of_eq {f : Scsi β → α × Scsi β} (a : α)
    (h : ∀ s : Scsi β, s.lockingStatus T = .lockedOther → f s = (a, s)) : Shut T f := by
  intro s d hl _
  rw [h s hl, h (s.withDisk d) hl]

/-! ### Commands that do not write -/

theorem shut_read_ (cdb : Cdb) : Shut T fun s => (s.read_ T cdb, s) := by
  intro s d _ hd
  unfold read_
  dsimp only
  rw [hd.validateRequest]

theorem shut_prefetch (cdb : Cdb) : Shut T fun s => (s.prefetch T cdb, s) := by
  intro s d _ hd
  unfold prefetch
  dsimp only
  rw [hd.validateRequest]

theorem shut_readCapacity10 : Shut T fun s => (s.readCapacity10 T, s) := by
  intro s d _ hd
  unfold readCapacity10
  dsimp only
  rw [hd.eq]

theorem shut_getLbaStatus (cdb : Cdb) : Shut T fun s => (s.getLbaStatus T cdb, s) := by
  intro s d _ hd
  unfold getLbaStatus readCapacity16 validateLba
  dsimp only
  rw [hd.eq]

theorem shut_syncCache : Shut T fun s => s.syncCache T :=
  shut_of_eq _ fun s hl => by rw [syncCache, sync_of_locked hl]

theorem shut_reserve : Shut T fun s => s.reserve T := by
  refine shut_of_eq { senseData := errorReservationConflict1 } fun s hl => ?_
  rw [reserve, if_pos (threads_of_locked hl), reserveDevice_of_locked hl]

theorem shut_release : Shut T fun s => s.release T := by
  refine shut_of_eq { type := .emptySense } fun s hl => ?_
  rw [release, if_pos (threads_of_locked hl), unlockDevice_of_locked hl]

/-! ### Commands that write -/

/-- The immediate data of a WRITE is not stored: neither the whole blocks, which
are written, nor the fragment behind them, which is read, filled in and written. -/
theorem shut_storeImmediate (lba : UInt64) (n : UInt32) (data : Bytes) :
    Shut T fun s => s.storeImmediate T lba n data := by
  -- the odd bytes at the end are stored behind a read, which fails
  have h_fragment (s : Scsi β) (hl : s.lockingStatus T = .lockedOther) :
      s.storeFragment T lba n data = (.failLocked, s) := by
    rw [storeFragment, read_of_locked hl]
  by_cases hb : data.length / T.blockSize > 0
  · -- whole blocks come first, and the write fails
    refine shut_of_eq .failLocked fun s hl => ?_
    have h_blocks : s.storeBlocks T lba n data = (.failLocked, s) := by
      rw [storeBlocks, if_pos hb, write_of_locked hl]
    rw [storeImmediate, h_blocks]
    exact if_neg fun h => nomatch h.1
  · -- no whole block: the read of the fragment is the first call, if there is a fragment
    have h_blocks (s : Scsi β) : s.storeBlocks T lba n data = (.ok, s) := by
      rw [storeBlocks, if_neg hb]
    intro s d hl _
    unfold storeImmediate
    dsimp only
    rw [h_blocks, h_blocks, h_fragment s hl, h_fragment (s.withDisk d) hl]
    split <;> rfl

/-- WRITE: what `storeImmediate` returns decides the answer, and it returns the
same. The reservation is found before the backend is called. -/
theorem shut_writeVerify (cdb : Cdb) (data : Bytes) :
    Shut T fun s => s.writeVerify T cdb data := by
  intro s d hl hd
  obtain ⟨rc, h_rc, h_rc'⟩ :=
    (shut_storeImmediate (T := T) cdb.range.1 cdb.range.2 data).both hl hd
  -- the sync behind a complete WRITE is stopped as well
  have h_sync (s : Scsi β) (hl : s.lockingStatus T = .lockedOther) :
      (if fuaBit cdb = true then (s.sync T).2 else s) = s := by
    rw [sync_of_locked hl, ite_self]
  unfold writeVerify
  dsimp only at h_rc h_rc' ⊢
  rw [hd.validateRequest, h_rc, h_rc']
  cases s.validateRequest T cdb.range.1 cdb.range.2 (some cdb) with
  | some sense => rfl
  | none =>
    dsimp only
    -- immediate data is stored, or not; without it nothing is called at all
    split
    · cases rc with
      | ok =>
        dsimp only
        rw [h_sync s hl, h_sync (s.withDisk d) hl]
        split <;> rfl
      | _ => rfl
    · split <;> rfl

/-- COMPARE AND WRITE is refused by `cmpwrite` before the backend reads either
half. -/
theorem shutE_compareAndWrite (cdb : Cdb) (data : Bytes) :
    ShutE T fun s => s.compareAndWrite T cdb data := by
  intro s d hl hd
  -- the backend is not reached, so nothing of the data is read either
  have h_reads {n : ℕ} : ¬ (s.lockingStatus T ≠ .lockedOther ∧ data.length < n) :=
    fun h => h.1 hl
  unfold compareAndWrite
  dsimp only
  rw [hd.validateRequest, cmpwrite_of_locked hl, cmpwrite_of_locked (s := s.withDisk d) hl,
    lockingStatus_withDisk, if_neg h_reads, if_neg h_reads]
  split
  · rfl
  · split <;> rfl

/-- A descriptor of UNMAP. It may be refused, or stopped by the reservation, but
the medium is never looked at. -/
theorem unmapDescriptor_withDisk (hl : s.lockingStatus T = .lockedOther) (hd : s.SameSize T d)
    (rc : RwResult) (sense : Bytes) (lba : UInt64) (n : UInt32) :
    ∃ rc' sense' goesOn,
      unmapDescriptor T { rc := rc, senseData := sense, scsi := s } lba n =
        ({ rc := rc', senseData := sense', scsi := s }, goesOn) ∧
      unmapDescriptor T { rc := rc, senseData := sense, scsi := s.withDisk d } lba n =
        ({ rc := rc', senseData := sense', scsi := s.withDisk d }, goesOn) := by
  unfold unmapDescriptor
  dsimp only
  rw [hd.validateRequest, trim_of_locked hl, trim_of_locked (s := s.withDisk d) hl]
  cases s.validateRequest T lba n none with
  -- the range is refused before the trim
  | some v => exact ⟨_, _, _, rfl, rfl⟩
  | none =>
    dsimp only
    -- whatever the trim would say, it says the same twice
    split_ifs
    · exact ⟨_, _, _, rfl, rfl⟩
    · exact ⟨_, _, _, rfl, rfl⟩
    · exact ⟨_, _, _, rfl, rfl⟩

/-- The loop of UNMAP, by induction on its turns. The first descriptor that is
not refused fails, so the state stays the same from turn to turn. -/
theorem unmapLoop_withDisk (hl : s.lockingStatus T = .lockedOther) (hd : s.SameSize T d)
    (turns : ℕ) (rc : RwResult) (sense data : Bytes) :
    ∃ r : Except Fault (RwResult × Bytes),
      unmapLoop T turns { rc := rc, senseData := sense, scsi := s } data =
        r.map (fun x => { rc := x.1, senseData := x.2, scsi := s }) ∧
      unmapLoop T turns { rc := rc, senseData := sense, scsi := s.withDisk d } data =
        r.map (fun x => { rc := x.1, senseData := x.2, scsi := s.withDisk d }) := by
  induction turns generalizing rc sense data with
  | zero =>
    cases data with
    | nil => exact ⟨.ok (rc, sense), rfl, rfl⟩
    | cons b rest => exact ⟨.error .outOfBounds, by simp [unmapLoop, Except.map],
        by simp [unmapLoop, Except.map]⟩
  | succ turns ih =>
    -- no bytes are left, or a whole descriptor, or a part of one, which is read past its end
    match data with
    | [] => exact ⟨.ok (rc, sense), rfl, rfl⟩
    | d0 :: d1 :: d2 :: d3 :: d4 :: d5 :: d6 :: d7 :: n0 :: n1 :: n2 :: n3 :: rest =>
      obtain ⟨rc', sense', goesOn, h_one, h_two⟩ := unmapDescriptor_withDisk hl hd rc sense
        (getUint64 d0 d1 d2 d3 d4 d5 d6 d7) (getUint32 n0 n1 n2 n3)
      cases goesOn with
      -- the loop goes on from the same state, so the induction does
      | true =>
        obtain ⟨r, h_r, h_r'⟩ := ih rc' sense' (rest.drop 4)
        refine ⟨r, ?_, ?_⟩
        · rw [unmapLoop, h_one]
          exact h_r
        · rw [unmapLoop, h_two]
          exact h_r'
      -- a failure ends it, and the state is still the same
      | false =>
        refine ⟨.ok (rc', sense'), ?_, ?_⟩
        · rw [unmapLoop, h_one]
          rfl
        · rw [unmapLoop, h_two]
          rfl
    | [_] | [_, _] | [_, _, _] | [_, _, _, _] | [_, _, _, _, _] | [_, _, _, _, _, _]
    | [_, _, _, _, _, _, _] | [_, _, _, _, _, _, _, _] | [_, _, _, _, _, _, _, _, _]
    | [_, _, _, _, _, _, _, _, _, _] | [_, _, _, _, _, _, _, _, _, _, _] =>
      exact ⟨.error .outOfBounds, rfl, rfl⟩

theorem shutE_unmap (data : Bytes) : ShutE T fun s => s.unmap T data := by
  intro s d hl hd
  obtain ⟨r, h_r, h_r'⟩ := unmapLoop_withDisk hl hd data.length .ok [] (data.drop 8)
  unfold unmap
  dsimp only
  rw [h_r, h_r']
  cases r <;> rfl

theorem writeSameBlock_of_locked (hl : s.lockingStatus T = .lockedOther) (isUnmap : Bool)
    (data : Bytes) (lba : UInt64) : s.writeSameBlock T isUnmap data lba = (.failLocked, s) := by
  rw [writeSameBlock, trim_of_locked hl, write_of_locked hl, ite_self]

theorem shut_writeSameBlocks (isUnmap : Bool) (data : Bytes) (k : ℕ) (lba : UInt64) :
    Shut T (writeSameBlocks T isUnmap data k lba) := by
  cases k with
  | zero => exact shut_of_eq .ok fun s _ => rfl
  -- the first block fails, and the loop ends there
  | succ k =>
    refine shut_of_eq .failLocked fun s hl => ?_
    rw [writeSameBlocks, writeSameBlock_of_locked hl]

theorem shutE_writeSameToEnd (isUnmap : Bool) (data : Bytes) (fuel : ℕ) (lba : UInt64) :
    ShutE T (writeSameToEnd T isUnmap data fuel lba) := by
  intro s d hl hd
  cases fuel with
  | zero => rfl
  | succ fuel =>
    rw [writeSameToEnd, writeSameToEnd, hd.eq, writeSameBlock_of_locked hl,
      writeSameBlock_of_locked (s := s.withDisk d) hl]
    split <;> rfl

theorem writeSameDone_withDisk (response : ScsiResponse) (rc : RwResult) (s : Scsi β) (d : β) :
    writeSameDone response (rc, s.withDisk d) =
      ((writeSameDone response (rc, s)).1, s.withDisk d) := by
  cases rc <;> rfl

theorem shutE_writeSame (fuel : ℕ) (cdb : Cdb) (data : Bytes) :
    ShutE T fun s => s.writeSame T fuel cdb data := by
  intro s d hl hd
  obtain ⟨rc, h_rc, h_rc'⟩ := (shut_writeSameBlocks (T := T) (cdb[1] &&& 8 != 0) data
    cdb.range.2.toNat cdb.range.1).both hl hd
  obtain ⟨r, h_r, h_r'⟩ := (shutE_writeSameToEnd (T := T) (cdb[1] &&& 8 != 0) data fuel
    cdb.range.1).both hl hd
  unfold writeSame
  dsimp only
  rw [hd.validateRequest, hd.eq, h_rc, h_rc', h_r, h_r']
  split
  · rfl
  · -- the refusals come before any call; the two loops are behind them
    split_ifs
    · rfl
    · rfl
    · cases r with
      | error f => rfl
      | ok rc' => exact congrArg Except.ok (writeSameDone_withDisk _ rc' s d)
    · exact congrArg Except.ok (writeSameDone_withDisk _ rc s d)
    · rfl
    · rfl

/-- **A command of a session that is locked out.** Whatever it is, it does the
same on any medium of that size, and leaves the medium alone. -/
theorem shutE_send (fuel : ℕ) (lun : UInt64) (cdb : Cdb) (data : Bytes) :
    ShutE T fun s => s.send T fuel lun cdb data := by
  -- the answers that do not depend on the device
  have h_const (a : ScsiResponse) : ShutE T fun s : Scsi β => .ok (a, s) :=
    (shut_of_eq a fun _ _ => rfl).toShutE
  -- MODE SENSE asks for the reservation itself
  have h_mode : Shut T fun s : Scsi β => (s.modeSense6 T, s) :=
    shut_of_eq { senseData := errorReservationConflict1 } fun s hl => by rw [modeSense6, if_pos hl]
  unfold send
  cases cdb.opcode with
  | testUnitReady => exact h_const _
  | modeSense6 => exact h_mode.toShutE
  | inquiry => exact h_const _
  | readCapacity10 => exact shut_readCapacity10.toShutE
  | getLbaStatus => exact (shut_getLbaStatus cdb).toShutE
  | write6 | write10 | writeVerify10 | write12 | write16 =>
    exact (shut_writeVerify cdb data).toShutE
  | read6 | read10 | read12 | read16 => exact (shut_read_ cdb).toShutE
  | syncCache10 => exact shut_syncCache.toShutE
  | reportLuns => exact h_const _
  | repSupOper => exact h_const _
  | compareAndWrite => exact shutE_compareAndWrite cdb data
  | prefetch10 | prefetch16 => exact (shut_prefetch cdb).toShutE
  | reserve6 => exact shut_reserve.toShutE
  | release6 => exact shut_release.toShutE
  | unmap => exact shutE_unmap data
  | writeSame10 | writeSame16 => exact shutE_writeSame fuel cdb data
  | requestSense | seek | other => exact h_const _

/-! ### Data-Out -/

/-- The data of a Data-Out is neither written nor trimmed. -/
theorem shut_writeDataOut (session : R2tSession) (offset : UInt32) (data : Bytes) :
    Shut T fun s => writeDataOut T s session offset data := by
  intro s d hl hd
  obtain ⟨rc, h_rc, h_rc'⟩ := (shut_writeSameBlocks (T := T) false data
    (UInt32.ofNat (session.bytesLeft.toNat / T.blockSize)).toNat
    (session.bufferLba + UInt64.ofNat (offset.toNat / T.blockSize))).both hl hd
  unfold writeDataOut
  dsimp only
  rw [h_rc, h_rc', trim_of_locked hl, trim_of_locked (s := s.withDisk d) hl, write_of_locked hl,
    write_of_locked (s := s.withDisk d) hl]
  split_ifs <;> rfl

/-- What a Data-Out leaves of its session entry does not depend on the backend
either. -/
theorem shut_storeDataOut (session : R2tSession) (offset : UInt32) (data : Bytes) :
    Shut T fun s => storeDataOut T s session offset data := by
  intro s d hl hd
  obtain ⟨rc, h_rc, h_rc'⟩ := (shut_writeDataOut (T := T) session offset data).both hl hd
  unfold storeDataOut
  dsimp only at h_rc h_rc' ⊢
  rw [h_rc, h_rc']
  dsimp only
  rw [sync_of_locked hl, sync_of_locked (s := s.withDisk d) hl]
  split_ifs <;> rfl

end Scsi

/-! ### Sending -/

namespace Conn

/-- The same connection, with another backend state behind it. -/
def withDisk (c : Conn β) (d : β) : Conn β := { c with scsi := c.scsi.withDisk d }

@[simp] theorem withDisk_scsi (c : Conn β) (d : β) : (c.withDisk d).scsi = c.scsi.withDisk d := rfl

@[simp] theorem withDisk_ses (c : Conn β) (d : β) : (c.withDisk d).ses = c.ses := rfl

end Conn

/-- Sending does not ask the backend. -/
theorem emitPdus_withDisk (ps : List PduOut) (ifr : FailReason) (s : Scsi β) (d : β) :
    emitPdus T ps ifr (s.withDisk d) =
      ((emitPdus T ps ifr s).1, (emitPdus T ps ifr s).2.withDisk d) := by
  induction ps generalizing ifr s with
  | nil => rfl
  | cons p ps ih =>
    unfold emitPdus
    split
    · exact ih _ (s.note _)
    · exact ih ifr s

theorem emitReplies_withDisk (rs : List Reply) (ifr : FailReason) (c : Conn β) (d : β) :
    emitReplies T rs ifr (c.withDisk d) =
      ((emitReplies T rs ifr c).1, (emitReplies T rs ifr c).2.withDisk d) := by
  induction rs generalizing ifr c with
  | nil => rfl
  | cons r rs ih =>
    unfold emitReplies
    dsimp only [Conn.withDisk]
    rw [emitPdus_withDisk]
    exact ih _ { scsi := (emitPdus T (r.get T c.ses).1 ifr c.scsi).2, ses := (r.get T c.ses).2 }

theorem does_emitPdus (ps : List PduOut) (ifr : FailReason) (s : Scsi β) :
    ∃ evs, s.Does (emitPdus T ps ifr s).2 evs := by
  induction ps generalizing ifr s with
  | nil => exact ⟨[], .refl s⟩
  | cons p ps ih =>
    unfold emitPdus
    split
    · obtain ⟨evs, h_evs⟩ := ih (if (sendPdu T s p).1 then .ok else .connection) (sendPdu T s p).2
      exact ⟨_, (Scsi.does_note _).trans h_evs⟩
    · exact ih ifr s

theorem extends_emitReplies (rs : List Reply) (ifr : FailReason) (c : Conn β) :
    c.Extends (emitReplies T rs ifr c).2 := by
  induction rs generalizing ifr c with
  | nil => exact .refl c
  | cons r rs ih =>
    unfold emitReplies
    dsimp only
    obtain ⟨evs, h_evs⟩ := does_emitPdus (T := T) (r.get T c.ses).1 ifr c.scsi
    exact .trans ⟨evs, h_evs⟩ (ih _ _)

/-- The handler's answer to a failure. -/
theorem replyToFailure_withDisk (c : Conn β) (pdu : Option Pdu) (ifr : FailReason) (d : β) :
    replyToFailure T (c.withDisk d) pdu ifr =
      (replyToFailure T c pdu ifr).map fun x => (x.1, x.2.withDisk d) := by
  unfold replyToFailure
  split
  · cases buildReject T pdu ifr <;> rfl
  · rfl

/-! ### Answers to a session that is locked out -/

section Answers

variable {c : Conn β} {d : β}

/-- The status of a command, or the R2T that asks for its data. Neither of them
has to do with the medium. -/
theorem statusReply_withDisk (replyTo : Header) (reply : ScsiResponse) :
    statusReply T (c.withDisk d) replyTo reply =
      (statusReply T c replyTo reply).map fun x => (x.1, x.2.1.withDisk d, x.2.2) := by
  unfold statusReply
  dsimp only [Conn.withDisk, Scsi.withDisk]
  cases reply.type with
  | asIs => dsimp only; split <;> rfl
  | emptySense => dsimp only; split <;> rfl
  -- an R2T opens a session entry, and the backend is not asked for that
  | r2t =>
    cases reply.amountOfDataExpected with
    | none => rfl
    | some n => dsimp only; split <;> rfl

theorem scsi_statusReply {replyTo : Header} {reply : ScsiResponse} {second : Option Reply}
    {c' : Conn β} {ok : Bool} (h : statusReply T c replyTo reply = .ok (second, c', ok)) :
    c'.scsi = c.scsi := by
  have h_eq {x : Option Reply} {c₁ : Conn β} {y : Bool}
      (h : (.ok (x, c₁, y) : Except Fault (Option Reply × Conn β × Bool)) =
        .ok (second, c', ok)) : c'.scsi = c₁.scsi := by
    rw [(Prod.mk.inj (Prod.mk.inj (Except.ok.inj h)).2).1]
  unfold statusReply at h
  cases h_type : reply.type with
  | asIs | emptySense =>
    rw [h_type] at h
    dsimp only at h
    split at h
    · exact h_eq h
    · exact h_eq h
  | r2t =>
    rw [h_type] at h
    cases h_amount : reply.amountOfDataExpected with
    | none =>
      rw [h_amount] at h
      cases h
    | some n =>
      rw [h_amount] at h
      dsimp only at h
      split at h
      · exact h_eq h
      · have h_same := h_eq h
        exact h_same

/-- **The answer to a SCSI Command.** It is built from what `send` returns and
from the session, so that the medium does not show in it. -/
theorem scsiCmdGetResponse_withDisk (hl : c.scsi.lockingStatus T = .lockedOther)
    (hd : c.scsi.SameSize T d) (fuel : ℕ) (q : Pdu) :
    scsiCmdGetResponse T fuel (c.withDisk d) q =
      (scsiCmdGetResponse T fuel c q).map fun x => (x.1, x.2.withDisk d) := by
  obtain ⟨r, h_r, h_r'⟩ :=
    (Scsi.shutE_send (T := T) fuel q.bhs.getLunNr q.bhs.getCdb q.data).both hl hd
  unfold scsiCmdGetResponse
  dsimp only [Conn.withDisk_scsi, Conn.withDisk_ses] at h_r h_r' ⊢
  rw [h_r, h_r']
  cases r with
  | error f => rfl
  | ok reply =>
    -- `send` has left the device as it was, so the status is answered from there
    have h_status := statusReply_withDisk (T := T) (c := c) (d := d) q.bhs reply
    dsimp only [Except.map]
    rw [show ({ scsi := c.scsi.withDisk d, ses := c.ses } : Conn β) = c.withDisk d from rfl,
      h_status]
    rcases statusReply T c q.bhs reply with f | ⟨second, c', ok⟩
    · rfl
    · cases ok <;> rfl

theorem scsi_scsiCmdGetResponse (hl : c.scsi.lockingStatus T = .lockedOther) {fuel : ℕ} {q : Pdu}
    {r : Option ResponseSet} {c' : Conn β} (h : scsiCmdGetResponse T fuel c q = .ok (r, c')) :
    c'.scsi = c.scsi := by
  have h_send := (Scsi.shutE_send (T := T) fuel q.bhs.getLunNr q.bhs.getCdb q.data).eq hl
  unfold scsiCmdGetResponse at h
  rw [h_send] at h
  cases h_reply : c.scsi.send T fuel q.bhs.getLunNr q.bhs.getCdb q.data with
  | error f =>
    rw [h_reply] at h
    cases h
  | ok x =>
    rw [h_reply] at h
    dsimp only [Except.map] at h
    rcases h_status : statusReply T c q.bhs x.1 with f | ⟨second, c'', ok⟩
    · rw [h_status] at h
      cases h
    · rw [h_status] at h
      have h_same := scsi_statusReply h_status
      cases ok with
      | false =>
        rw [← (Prod.mk.inj (Except.ok.inj h)).2]
        exact h_same
      | true =>
        rw [← (Prod.mk.inj (Except.ok.inj h)).2]
        exact h_same

theorem taskmanGetResponse_of_locked (hl : c.scsi.lockingStatus T = .lockedOther) (q : Pdu) :
    taskmanGetResponse T c q = ({ responses := [.taskmanReply (taskmanReplySet T q.bhs)] }, c) := by
  unfold taskmanGetResponse
  dsimp only
  rw [Scsi.unlockDevice_of_locked hl, ite_self]

/-- **The answer to a PDU that is no Data-Out.** Only the SCSI Command has to do
with the device at all. -/
theorem getResponse_withDisk (hl : c.scsi.lockingStatus T = .lockedOther)
    (hd : c.scsi.SameSize T d) (fuel : ℕ) (q : Pdu) :
    getResponse T fuel (c.withDisk d) q =
      (getResponse T fuel c q).map fun x => (x.1, x.2.withDisk d) := by
  unfold getResponse
  cases q.bhs.getOpcode with
  | scsiCmd => exact scsiCmdGetResponse_withDisk hl hd fuel q
  | loginReq =>
    -- a login reads the session and not the device
    have h_set : LoginReplyPdu.set T fuel (c.withDisk d) q.bhs =
        LoginReplyPdu.set T fuel c q.bhs := rfl
    dsimp only
    rw [h_set]
    cases LoginReplyPdu.set T fuel c q.bhs <;> rfl
  | scsiTaskman =>
    dsimp only
    -- a reset would release the reservation, which is not this session's
    rw [taskmanGetResponse_of_locked hl, taskmanGetResponse_of_locked (c := c.withDisk d) hl]
    rfl
  | nopOut | textReq | logoutReq | scsiDataOut | r2t | other => rfl

theorem scsi_getResponse (hl : c.scsi.lockingStatus T = .lockedOther) {fuel : ℕ} {q : Pdu}
    {r : Option ResponseSet} {c' : Conn β} (h : getResponse T fuel c q = .ok (r, c')) :
    c'.scsi = c.scsi := by
  unfold getResponse at h
  cases h_op : q.bhs.getOpcode with
  | scsiCmd =>
    rw [h_op] at h
    exact scsi_scsiCmdGetResponse hl h
  | loginReq =>
    rw [h_op] at h
    dsimp only at h
    cases h_set : LoginReplyPdu.set T fuel c q.bhs with
    | error f =>
      rw [h_set] at h
      cases h
    | ok x =>
      rw [h_set] at h
      rw [← (Prod.mk.inj (Except.ok.inj h)).2]
  | scsiTaskman =>
    rw [h_op] at h
    dsimp only at h
    rw [taskmanGetResponse_of_locked hl] at h
    rw [← (Prod.mk.inj (Except.ok.inj h)).2]
  | nopOut | textReq | logoutReq | scsiDataOut | r2t | other =>
    rw [h_op] at h
    rw [← (Prod.mk.inj (Except.ok.inj h)).2]

theorem streamRead_of_locked (hl : c.scsi.lockingStatus T = .lockedOther) (lba : UInt64)
    (n : UInt32) : streamRead T c.scsi lba n = (.error .failLocked, c.scsi) := by
  unfold streamRead
  split <;> rw [Scsi.read_of_locked hl]

/-- Streaming ends at the first read. -/
theorem streamLoop_withDisk (hl : c.scsi.lockingStatus T = .lockedOther) (p : StreamParams)
    (fuel : ℕ) (ifr : FailReason) (offset : UInt32) (lba : UInt64) :
    streamLoop T p fuel ifr offset lba (c.withDisk d) =
      (streamLoop T p fuel ifr offset lba c).map fun x => (x.1, x.2.withDisk d) := by
  cases fuel with
  | zero => rfl
  | succ fuel =>
    unfold streamLoop
    dsimp only
    rw [streamRead_of_locked hl, streamRead_of_locked (c := c.withDisk d) hl]
    split <;> rfl

theorem streamData_withDisk (hl : c.scsi.lockingStatus T = .lockedOther) (fuel : ℕ)
    (ifr : FailReason) (replyTo : Header) (loc : DataDescriptor) :
    streamData T fuel ifr (c.withDisk d) replyTo loc =
      (streamData T fuel ifr c replyTo loc).map fun x => (x.1, x.2.withDisk d) := by
  unfold streamData
  dsimp only [Conn.withDisk_scsi, Scsi.history_withDisk]
  split
  · rfl
  · exact streamLoop_withDisk hl _ fuel ifr 0 loc.lba

/-- **The answer to a Data-Out.** Its write is stopped by the reservation,
whether or not the R2T was sent before it was made. -/
theorem handleDataOut_withDisk (hl : c.scsi.lockingStatus T = .lockedOther)
    (hd : c.scsi.SameSize T d) (q : Pdu) :
    handleDataOut T (c.withDisk d) q =
      ((handleDataOut T c q).1, (handleDataOut T c q).2.withDisk d) ∧
      (handleDataOut T c q).2.scsi = c.scsi := by
  -- the end of a burst answers, or asks for more, and calls nothing
  have h_batch (c : Conn β) (session : R2tSession) (tag : UInt32) :
      endOfBatch T (c.withDisk d) session tag =
        ((endOfBatch T c session tag).1, (endOfBatch T c session tag).2.withDisk d) ∧
        (endOfBatch T c session tag).2.scsi = c.scsi := by
    unfold endOfBatch
    dsimp only
    split <;> exact ⟨rfl, rfl⟩
  unfold handleDataOut
  dsimp only [Conn.withDisk_ses, Conn.withDisk_scsi]
  cases c.ses.getR2tSesion (dataOutTag q.bhs) with
  -- no entry has this tag
  | none => exact ⟨rfl, rfl⟩
  | some session =>
    dsimp only
    obtain ⟨r, h_r, h_r'⟩ :=
      (Scsi.shut_storeDataOut (T := T) session q.bhs.getBufferOffset q.data).both hl hd
    rw [h_r, h_r']
    split
    · -- with data: the result of the store is the same, so the same branch is taken
      cases r with
      | error ifr => exact ⟨rfl, rfl⟩
      | ok session' =>
        dsimp only
        split
        · have h_b := h_batch
            { scsi := c.scsi, ses := c.ses.setR2tSession (dataOutTag q.bhs) session' } session'
            (dataOutTag q.bhs)
          exact ⟨congrArg (fun x => (Except.ok (some x.1), x.2)) h_b.1, h_b.2⟩
        · exact ⟨rfl, rfl⟩
    · split
      · have h_b := h_batch c session (dataOutTag q.bhs)
        exact ⟨congrArg (fun x => (Except.ok (some x.1), x.2)) h_b.1, h_b.2⟩
      · exact ⟨rfl, rfl⟩

theorem finishResponse_withDisk (hl : c.scsi.lockingStatus T = .lockedOther) (fuel : ℕ) (q : Pdu)
    (r : Option ResponseSet) :
    finishResponse T fuel q (r, c.withDisk d) =
      (finishResponse T fuel q (r, c)).map fun x => (x.1, x.2.withDisk d) := by
  cases r with
  | none => rfl
  | some responseSet =>
    unfold finishResponse emitResponseSet
    dsimp only
    rw [emitReplies_withDisk]
    cases responseSet.toStream with
    | none => rfl
    | some loc =>
      -- the answers sent so far have not touched the reservation
      refine streamData_withDisk ?_ fuel _ q.bhs loc
      rw [(extends_emitReplies _ _ c).lockingStatus]
      exact hl

/-- **A PDU of a session that is locked out**: with another backend state of the
same size the answers are the same, and so is what becomes of the session. -/
theorem serve_withDisk (hl : c.scsi.lockingStatus T = .lockedOther) (hd : c.scsi.SameSize T d)
    (fuel : ℕ) (q : Pdu) :
    serve T fuel (c.withDisk d) q = (serve T fuel c q).map fun c' => c'.withDisk d := by
  have h_push : pushResponse T fuel (c.withDisk d) q =
      (pushResponse T fuel c q).map fun x => (x.1, x.2.withDisk d) := by
    have h_receive :
        ({ scsi := (c.withDisk d).scsi.note (.received q), ses := (c.withDisk d).ses } :
        Conn β) = (c.receive q).withDisk d := rfl
    have h_receive' : ({ scsi := c.scsi.note (.received q), ses := c.ses } : Conn β) =
        c.receive q := rfl
    have hl' : (c.receive q).scsi.lockingStatus T = .lockedOther := hl
    have hd' : (c.receive q).scsi.SameSize T d := hd
    unfold pushResponse
    dsimp only
    rw [h_receive, h_receive']
    split
    · -- a Data-Out
      obtain ⟨h_same, h_scsi⟩ := handleDataOut_withDisk hl' hd' q
      rw [h_same]
      rcases h_out : handleDataOut T (c.receive q) q with ⟨ifr | r, c'⟩
      · rfl
      · rw [h_out] at h_scsi
        refine finishResponse_withDisk ?_ fuel q r
        rw [h_scsi]
        exact hl'
    · -- any other PDU
      rw [getResponse_withDisk hl' hd']
      rcases h_get : getResponse T fuel (c.receive q) q with f | ⟨r, c'⟩
      · rfl
      · refine finishResponse_withDisk ?_ fuel q r
        rw [scsi_getResponse hl' h_get]
        exact hl'
  unfold serve
  rw [h_push]
  rcases pushResponse T fuel c q with f | ⟨ifr, c'⟩
  · rfl
  · dsimp only [Except.map]
    rw [replyToFailure_withDisk]
    cases replyToFailure T c' (some q) ifr <;> rfl

/-- The backend is left as it is. -/
theorem disk_serve (hl : c.scsi.lockingStatus T = .lockedOther) {fuel : ℕ} {q : Pdu}
    {c' : Conn β} (h : serve T fuel c q = .ok c') : c'.scsi.disk = c.scsi.disk := by
  -- the state itself is one of the states that `serve_withDisk` speaks of
  have h_same := serve_withDisk (d := c.scsi.disk) hl rfl fuel q
  have h_self : c.withDisk c.scsi.disk = c := rfl
  rw [h_self, h] at h_same
  have h_eq : c' = c'.withDisk c.scsi.disk := Except.ok.inj h_same
  rw [h_eq]
  rfl

end Answers

end IscsiTarget
