import IscsiTarget.Lib.Run
import IscsiTarget.Model.Sample
import IscsiTarget.Sessions.Locked

/-!
# The reservation is exclusive

Two facts about one PDU carry the result over the runs of a server with any number of
sessions.

* `serve_withDisk`, `disk_serve`: a session that is locked out neither changes what the
  backend stores nor gets to know it.
* `holderStep_serve`: a session can take a reservation that nobody has, and give its own back
  with RELEASE or a task management request that resets the unit. Nothing else happens to a
  reservation.

With the end of a session, which gives the reservation back, they give the invariant that the
holder is a session that is alive (`HolderAlive`), and `Server.reservation_exclusive`.
-/

namespace IscsiTarget

variable {β : Type} {T : Target β}

/-! ### What can happen to a reservation -/

variable (T) in
/-- What a session can do about the reservation: leave it as it is, take it when
nobody has it, or give its own back, and this only if `frees`. -/
inductive HolderStep (frees : Prop) : Option ℕ → Option ℕ → Prop
  | stays (id : Option ℕ) : HolderStep frees id id
  | takes : HolderStep frees none (some T.thread)
  | gives (h : frees) : HolderStep frees (some T.thread) none

theorem HolderStep.of_eq {frees : Prop} {id id' : Option ℕ} (h : id' = id) :
    HolderStep T frees id id' := by
  rw [h]
  exact .stays id

theorem HolderStep.mono {p q : Prop} {id id' : Option ℕ} (h : HolderStep T p id id')
    (hpq : p → q) : HolderStep T q id id' := by
  cases h with
  | stays => exact .stays id
  | takes => exact .takes
  | gives hp => exact .gives (hpq hp)

namespace Scsi

variable {s : Scsi β}

theorem lockedBy_write (blockNr : UInt64) (n : UInt32) (data : Bytes) :
    (s.write T blockNr n data).2.lockedBy = s.lockedBy := by
  obtain ⟨evs, h⟩ := writes_write (T := T) s blockNr n data
  exact h.does.lockedBy

theorem lockedBy_trim (blockNr : UInt64) (n : UInt32) :
    (s.trim T blockNr n).2.lockedBy = s.lockedBy := by
  obtain ⟨evs, h⟩ := writes_trim (T := T) s blockNr n
  exact h.does.lockedBy

theorem lockedBy_sync : (s.sync T).2.lockedBy = s.lockedBy := by
  obtain ⟨evs, h, -⟩ := does_sync (T := T) s
  exact h.lockedBy

theorem lockedBy_read (blockNr : UInt64) (n : UInt32) :
    (s.read T blockNr n).2.lockedBy = s.lockedBy := by
  unfold read
  split
  · rcases T.backend.read s.disk blockNr n with ⟨_ | buf, disk⟩ <;> rfl
  · rfl

theorem lockedBy_cmpwrite (blockNr : UInt64) (n : UInt32) (dataWrite dataCompare : Bytes) :
    (s.cmpwrite T blockNr n dataWrite dataCompare).2.lockedBy = s.lockedBy := by
  unfold cmpwrite
  split <;> rfl

theorem lockedBy_storeImmediate (lba : UInt64) (n : UInt32) (data : Bytes) :
    (s.storeImmediate T lba n data).2.lockedBy = s.lockedBy := by
  have h_blocks : (s.storeBlocks T lba n data).2.lockedBy = s.lockedBy := by
    unfold storeBlocks
    split
    · exact lockedBy_write lba _ data
    · rfl
  -- the read in front of the fragment may fail, and then there is no write
  have h_fragment (s : Scsi β) : (s.storeFragment T lba n data).2.lockedBy = s.lockedBy := by
    have h_read := lockedBy_read (T := T) (s := s)
      (lba + (workNBlocks T n data).toUInt64) 1
    unfold storeFragment
    rcases h : s.read T (lba + (workNBlocks T n data).toUInt64) 1 with ⟨rc | buf, s'⟩
    · rw [h] at h_read
      exact h_read
    · rw [h] at h_read
      exact (lockedBy_write _ 1 _).trans h_read
  unfold storeImmediate
  dsimp only
  split
  · exact (h_fragment _).trans h_blocks
  · exact h_blocks

theorem lockedBy_writeVerify (cdb : Cdb) (data : Bytes) :
    (s.writeVerify T cdb data).2.lockedBy = s.lockedBy := by
  have h_store := lockedBy_storeImmediate (T := T) (s := s) cdb.range.1 cdb.range.2 data
  unfold writeVerify
  dsimp only
  rcases h : s.storeImmediate T cdb.range.1 cdb.range.2 data with ⟨rc, s'⟩
  rw [h] at h_store
  -- refused, stored, or asked for with an R2T; only the sync behind the store is one more call
  cases s.validateRequest T cdb.range.1 cdb.range.2 (some cdb) with
  | some sense => rfl
  | none =>
    dsimp only
    split
    · cases rc with
      | ok =>
        dsimp only
        split
        · split
          · exact lockedBy_sync.trans h_store
          · exact h_store
        · exact h_store
      | _ => exact h_store
    · split <;> rfl

theorem lockedBy_compareAndWrite {cdb : Cdb} {data : Bytes} {x : ScsiResponse × Scsi β}
    (h : s.compareAndWrite T cdb data = .ok x) : x.2.lockedBy = s.lockedBy := by
  have h_cmp := lockedBy_cmpwrite (T := T) (s := s)
    (getUint64 cdb[2] cdb[3] cdb[4] cdb[5] cdb[6] cdb[7] cdb[8] cdb[9]) cdb[13].toUInt32
    (data.drop (T.nBytes cdb[13].toUInt32)) data
  unfold compareAndWrite at h
  dsimp only at h
  split at h
  · rw [← Except.ok.inj h]
  · split at h
    · rw [← Except.ok.inj h]
    · split at h
      · cases h
      · split at h <;> (next hc => rw [hc] at h_cmp; rw [← Except.ok.inj h]; exact h_cmp)

theorem lockedBy_unmapDescriptor (u : UnmapState β) (lba : UInt64) (n : UInt32) :
    (unmapDescriptor T u lba n).1.scsi.lockedBy = u.scsi.lockedBy := by
  unfold unmapDescriptor
  split
  · rfl
  · split
    · rfl
    · split
      · exact lockedBy_trim lba n
      · rfl

/-- The loop of UNMAP does nothing about the reservation; neither does any of
the functions of `scsi` that read or write. -/
theorem lockedBy_unmapLoop (turns : ℕ) (u : UnmapState β) (data : Bytes) {u' : UnmapState β}
    (h : unmapLoop T turns u data = .ok u') : u'.scsi.lockedBy = u.scsi.lockedBy := by
  induction turns, u, data using unmapLoop.induct (T := T) with
  | case1 turns u =>
    rw [unmapLoop] at h
    rw [← Except.ok.inj h]
  -- the descriptor went well, and the loop goes on
  | case2 turns u d0 d1 d2 d3 d4 d5 d6 d7 n0 n1 n2 n3 rest u₁ h_one ih =>
    rw [unmapLoop, h_one] at h
    have h_d := lockedBy_unmapDescriptor (T := T) u (getUint64 d0 d1 d2 d3 d4 d5 d6 d7)
      (getUint32 n0 n1 n2 n3)
    rw [h_one] at h_d
    exact (ih h).trans h_d
  -- it did not, and the loop ends with it
  | case3 turns u d0 d1 d2 d3 d4 d5 d6 d7 n0 n1 n2 n3 rest u₁ h_one =>
    rw [unmapLoop, h_one] at h
    have h_d := lockedBy_unmapDescriptor (T := T) u (getUint64 d0 d1 d2 d3 d4 d5 d6 d7)
      (getUint32 n0 n1 n2 n3)
    rw [h_one] at h_d
    rw [← Except.ok.inj h]
    exact h_d
  -- too few bytes for a descriptor, which is a fault and no state
  | case4 turns u data h_nil h_cons =>
    rw [unmapLoop] at h
    · cases h
    · exact h_nil
    · exact h_cons

theorem lockedBy_unmap {data : Bytes} {x : ScsiResponse × Scsi β} (h : s.unmap T data = .ok x) :
    x.2.lockedBy = s.lockedBy := by
  unfold unmap at h
  cases h_loop : unmapLoop T data.length { scsi := s } (data.drop 8) with
  | error f =>
    rw [h_loop] at h
    cases h
  | ok u =>
    rw [h_loop] at h
    rw [← Except.ok.inj h]
    exact lockedBy_unmapLoop _ _ _ h_loop

theorem lockedBy_writeSameBlock (isUnmap : Bool) (data : Bytes) (lba : UInt64) :
    (s.writeSameBlock T isUnmap data lba).2.lockedBy = s.lockedBy := by
  unfold writeSameBlock
  split
  · exact lockedBy_trim lba 1
  · exact lockedBy_write lba 1 data

theorem lockedBy_writeSameBlocks (isUnmap : Bool) (data : Bytes) (k : ℕ) (lba : UInt64)
    (s : Scsi β) : (writeSameBlocks T isUnmap data k lba s).2.lockedBy = s.lockedBy := by
  obtain ⟨evs, h⟩ := writes_writeSameBlocks (T := T) isUnmap data k lba s
  exact h.does.lockedBy

theorem lockedBy_writeSameToEnd (isUnmap : Bool) (data : Bytes) (fuel : ℕ) (lba : UInt64)
    (s : Scsi β) {x : RwResult × Scsi β}
    (h : writeSameToEnd T isUnmap data fuel lba s = .ok x) : x.2.lockedBy = s.lockedBy := by
  induction fuel generalizing lba s with
  | zero => cases h
  | succ fuel ih =>
    have h_block := lockedBy_writeSameBlock (T := T) (s := s) isUnmap data lba
    unfold writeSameToEnd at h
    split at h
    · rcases h_eq : s.writeSameBlock T isUnmap data lba with ⟨rc, s'⟩
      rw [h_eq] at h h_block
      cases rc with
      -- a block has been written, and the next one comes
      | ok => exact (ih _ _ h).trans h_block
      | _ =>
        rw [← Except.ok.inj h]
        exact h_block
    · rw [← Except.ok.inj h]

theorem lockedBy_writeSameDone (response : ScsiResponse) (x : RwResult × Scsi β) :
    (writeSameDone response x).2.lockedBy = x.2.lockedBy := by
  obtain ⟨rc, s⟩ := x
  cases rc <;> rfl

theorem lockedBy_writeSame {fuel : ℕ} {cdb : Cdb} {data : Bytes} {x : ScsiResponse × Scsi β}
    (h : s.writeSame T fuel cdb data = .ok x) : x.2.lockedBy = s.lockedBy := by
  -- every branch ends at once, or in one of the two loops
  unfold writeSame at h
  dsimp only at h
  split at h
  · rw [← Except.ok.inj h]
  · split at h
    · split at h
      · rw [← Except.ok.inj h]
      · split at h
        · split at h
          · rw [← Except.ok.inj h]
          · cases h_end : writeSameToEnd T (cdb[1] &&& 8 != 0) data fuel cdb.range.1 s with
            | error f =>
              rw [h_end] at h
              cases h
            | ok y =>
              rw [h_end] at h
              rw [← Except.ok.inj h]
              exact (lockedBy_writeSameDone _ y).trans (lockedBy_writeSameToEnd _ _ _ _ _ h_end)
        · rw [← Except.ok.inj h]
          exact (lockedBy_writeSameDone _ _).trans (lockedBy_writeSameBlocks _ _ _ _ _)
    · split at h
      · rw [← Except.ok.inj h]
      · rw [← Except.ok.inj h]

/-- `unlock_device` gives back the reservation of the thread itself, if it has
one. -/
theorem holderStep_unlockDevice :
    HolderStep T True s.lockedBy (s.unlockDevice T).2.lockedBy := by
  unfold unlockDevice
  split
  · cases h : s.lockedBy with
    | none => exact .of_eq h
    | some id =>
      dsimp only
      split
      · next h_eq =>
        rw [h_eq]
        -- the only branch of the source that resets `locked_by`
        exact .gives trivial
      · exact .of_eq h
  · exact .stays _

/-- RESERVE takes a reservation that nobody has. That of another thread it
leaves alone. -/
theorem holderStep_reserve : HolderStep T False s.lockedBy (s.reserve T).2.lockedBy := by
  -- a reservation is taken only where there is none
  have h_device : HolderStep T False s.lockedBy (s.reserveDevice T).2.lockedBy := by
    unfold reserveDevice
    split
    · cases h : s.lockedBy with
      | none => exact .takes
      | some id =>
        dsimp only
        split
        · exact .of_eq h
        · exact .of_eq h
    · exact .stays _
  unfold reserve
  split
  · rcases h : s.reserveDevice T with ⟨rc, s'⟩
    rw [h] at h_device
    cases rc <;> exact h_device
  · exact .stays _

theorem holderStep_release : HolderStep T True s.lockedBy (s.release T).2.lockedBy := by
  unfold release
  split
  · exact holderStep_unlockDevice
  · exact .stays _

/-- **What a command does about the reservation.** RESERVE takes it when it is
free, RELEASE gives it back when it is one's own, and no other command touches
it. -/
theorem holderStep_send {fuel : ℕ} {lun : UInt64} {cdb : Cdb} {data : Bytes}
    {x : ScsiResponse × Scsi β} (h : s.send T fuel lun cdb data = .ok x) :
    HolderStep T (cdb.opcode = .release6) s.lockedBy x.2.lockedBy := by
  unfold send at h
  cases h_op : cdb.opcode with
  -- all commands but two leave the reservation alone
  | write6 | write10 | writeVerify10 | write12 | write16 =>
    rw [h_op] at h
    rw [← Except.ok.inj h]
    exact .of_eq (lockedBy_writeVerify cdb data)
  | syncCache10 =>
    rw [h_op] at h
    rw [← Except.ok.inj h]
    exact .of_eq lockedBy_sync
  | compareAndWrite =>
    rw [h_op] at h
    exact .of_eq (lockedBy_compareAndWrite h)
  | reserve6 =>
    rw [h_op] at h
    rw [← Except.ok.inj h]
    exact holderStep_reserve.mono False.elim
  | release6 =>
    rw [h_op] at h
    rw [← Except.ok.inj h]
    exact holderStep_release.mono fun _ => rfl
  | unmap =>
    rw [h_op] at h
    exact .of_eq (lockedBy_unmap h)
  | writeSame10 | writeSame16 =>
    rw [h_op] at h
    exact .of_eq (lockedBy_writeSame h)
  | _ =>
    rw [h_op] at h
    rw [← Except.ok.inj h]
    exact .stays _

end Scsi

/-- A RELEASE. -/
def Pdu.IsRelease (q : Pdu) : Prop :=
  q.bhs.getOpcode = .scsiCmd ∧ q.bhs.getCdb.opcode = .release6

/-- A task management request that resets the unit or the target. -/
def Pdu.IsReset (q : Pdu) : Prop :=
  q.bhs.getOpcode = .scsiTaskman ∧
    (q.bhs.getTaskFunc = 5 ∨ q.bhs.getTaskFunc = 6 ∨ q.bhs.getTaskFunc = 7)

section Pdus

variable {fuel : ℕ} {c c' : Conn β} {q : Pdu}

theorem holderStep_scsiCmdGetResponse {r : Option ResponseSet}
    (h : scsiCmdGetResponse T fuel c q = .ok (r, c')) :
    HolderStep T (q.bhs.getCdb.opcode = .release6) c.scsi.lockedBy c'.scsi.lockedBy := by
  unfold scsiCmdGetResponse at h
  cases h_send : c.scsi.send T fuel q.bhs.getLunNr q.bhs.getCdb q.data with
  | error f =>
    rw [h_send] at h
    cases h
  | ok x =>
    have h_step := Scsi.holderStep_send h_send
    rw [h_send] at h
    dsimp only at h
    rcases h_status : statusReply T { c with scsi := x.2 } q.bhs x.1 with f | ⟨second, c'', ok⟩
    · rw [h_status] at h
      cases h
    · rw [h_status] at h
      -- the status reply is about the session, not about the device
      have h_same : c''.scsi = x.2 := scsi_statusReply h_status
      cases ok with
      | false =>
        rw [← (Prod.mk.inj (Except.ok.inj h)).2, h_same]
        exact h_step
      | true =>
        rw [← (Prod.mk.inj (Except.ok.inj h)).2, h_same]
        exact h_step

theorem holderStep_getResponse {r : Option ResponseSet}
    (h : getResponse T fuel c q = .ok (r, c')) :
    HolderStep T (q.IsRelease ∨ q.IsReset) c.scsi.lockedBy c'.scsi.lockedBy := by
  unfold getResponse at h
  cases h_op : q.bhs.getOpcode with
  | scsiCmd =>
    rw [h_op] at h
    exact (holderStep_scsiCmdGetResponse h).mono fun h_rel => .inl ⟨h_op, h_rel⟩
  | loginReq =>
    rw [h_op] at h
    dsimp only at h
    cases h_set : LoginReplyPdu.set T fuel c q.bhs with
    | error f =>
      rw [h_set] at h
      cases h
    | ok x =>
      rw [h_set] at h
      rw [← (Prod.mk.inj (Except.ok.inj h)).2]
      exact .stays _
  | scsiTaskman =>
    rw [h_op] at h
    rw [← (Prod.mk.inj (Except.ok.inj h)).2]
    split
    · next h_func => exact Scsi.holderStep_unlockDevice.mono fun _ => .inr ⟨h_op, h_func⟩
    · exact .stays _
  | nopOut | textReq | logoutReq | scsiDataOut | r2t | other =>
    rw [h_op] at h
    rw [← (Prod.mk.inj (Except.ok.inj h)).2]
    exact .stays _

theorem lockedBy_storeDataOut (s : Scsi β) (session : R2tSession) (offset : UInt32) (data : Bytes) :
    (storeDataOut T s session offset data).2.lockedBy = s.lockedBy := by
  have h_written : (writeDataOut T s session offset data).2.lockedBy = s.lockedBy := by
    unfold writeDataOut
    dsimp only
    split
    · split
      · exact Scsi.lockedBy_trim _ _
      · exact Scsi.lockedBy_writeSameBlocks _ _ _ _ _
    · exact Scsi.lockedBy_write _ _ _
  have h_synced : ((writeDataOut T s session offset data).2.sync T).2.lockedBy = s.lockedBy :=
    Scsi.lockedBy_sync.trans h_written
  unfold storeDataOut
  dsimp only
  -- the six ways out of the branch
  split_ifs
  · rfl
  · rfl
  · exact h_written
  · exact h_synced
  · exact h_synced
  · exact h_written

theorem lockedBy_handleDataOut : (handleDataOut T c q).2.scsi.lockedBy = c.scsi.lockedBy := by
  have h_batch (c : Conn β) (session : R2tSession) (tag : UInt32) :
      (endOfBatch T c session tag).2.scsi = c.scsi := by
    unfold endOfBatch
    dsimp only
    split <;> rfl
  unfold handleDataOut
  dsimp only
  cases c.ses.getR2tSesion (dataOutTag q.bhs) with
  | none => rfl
  | some session =>
    dsimp only
    split
    · have h_store := lockedBy_storeDataOut (T := T) c.scsi session q.bhs.getBufferOffset q.data
      rcases h_eq : storeDataOut T c.scsi session q.bhs.getBufferOffset q.data with
        ⟨ifr | session', scsi'⟩
      · rw [h_eq] at h_store
        exact h_store
      · rw [h_eq] at h_store
        dsimp only
        split
        · rw [h_batch]
          exact h_store
        · exact h_store
    · split
      · rw [h_batch]
      · rfl

theorem lockedBy_streamRead (s : Scsi β) (lba : UInt64) (n : UInt32) :
    (streamRead T s lba n).2.lockedBy = s.lockedBy := by
  have h_read (k : UInt32) := Scsi.lockedBy_read (T := T) (s := s) lba k
  unfold streamRead
  split
  · have h_one := h_read 1
    rcases h : s.read T lba 1 with ⟨rc | buf, s'⟩ <;> (rw [h] at h_one; exact h_one)
  · have h_many := h_read (UInt32.ofNat (n.toNat / T.blockSize))
    rcases h : s.read T lba (UInt32.ofNat (n.toNat / T.blockSize)) with ⟨rc | buf, s'⟩ <;>
      (rw [h] at h_many; exact h_many)

/-- Induction over the turns of the loop. A read of the backend leaves the
reservation as it is. -/
theorem lockedBy_streamLoop (p : StreamParams) (fuel : ℕ) (ifr : FailReason) (offset : UInt32)
    (lba : UInt64) (c : Conn β) {x : FailReason × Conn β}
    (h : streamLoop T p fuel ifr offset lba c = .ok x) :
    x.2.scsi.lockedBy = c.scsi.lockedBy := by
  induction fuel generalizing offset lba c with
  | zero => cases h
  | succ fuel ih =>
    unfold streamLoop at h
    dsimp only at h
    split at h
    · have h_read := lockedBy_streamRead (T := T) c.scsi lba (p.currentN c.ses offset)
      rcases h_eq : streamRead T c.scsi lba (p.currentN c.ses offset) with ⟨rc | payload, s'⟩
      · rw [h_eq] at h h_read
        rw [← Except.ok.inj h]
        exact h_read
      · rw [h_eq] at h h_read
        dsimp only [sendPdu] at h
        split at h
        · next h_sent =>
          rw [← Except.ok.inj h, ← (Prod.mk.inj h_sent).2]
          exact h_read
        · next h_sent =>
          have h_rest := ih _ _ _ h
          rw [← (Prod.mk.inj h_sent).2] at h_rest
          exact h_rest.trans h_read
    · rw [← Except.ok.inj h]

theorem lockedBy_finishResponse {r : Option ResponseSet} {x : FailReason × Conn β}
    (h : finishResponse T fuel q (r, c) = .ok x) : x.2.scsi.lockedBy = c.scsi.lockedBy := by
  cases r with
  | none => rw [← Except.ok.inj h]
  | some responseSet =>
    -- neither the sends nor the reads are about the reservation
    obtain ⟨evs, h_emit⟩ := extends_emitReplies (T := T) responseSet.responses .ok c
    unfold finishResponse emitResponseSet at h
    dsimp only at h
    cases h_stream : responseSet.toStream with
    | none =>
      rw [h_stream] at h
      rw [← Except.ok.inj h]
      exact h_emit.lockedBy
    | some loc =>
      rw [h_stream] at h
      unfold streamData at h
      dsimp only at h
      split at h
      · rw [← Except.ok.inj h]
        exact h_emit.lockedBy
      · exact (lockedBy_streamLoop _ _ _ _ _ _ h).trans h_emit.lockedBy

/-- **What a PDU does about the reservation.** Besides the commands there is the
reset of a task management request, which gives it back for its own session
only. -/
theorem holderStep_serve (h : serve T fuel c q = .ok c') :
    HolderStep T (q.IsRelease ∨ q.IsReset) c.scsi.lockedBy c'.scsi.lockedBy := by
  -- `push_response` first: a Data-Out does nothing about it, the rest is up to `get_response`
  have h_push {x : FailReason × Conn β} (h : pushResponse T fuel c q = .ok x) :
      HolderStep T (q.IsRelease ∨ q.IsReset) c.scsi.lockedBy x.2.scsi.lockedBy := by
    have h_receive : ({ scsi := c.scsi.note (.received q), ses := c.ses } : Conn β) =
        c.receive q := rfl
    unfold pushResponse at h
    dsimp only at h
    rw [h_receive] at h
    split at h
    · have h_out := lockedBy_handleDataOut (T := T) (c := c.receive q) (q := q)
      rcases h_eq : handleDataOut T (c.receive q) q with ⟨ifr | r, c₁⟩
      · rw [h_eq] at h h_out
        rw [← Except.ok.inj h]
        exact .of_eq h_out
      · rw [h_eq] at h h_out
        exact .of_eq ((lockedBy_finishResponse h).trans h_out)
    · rcases h_eq : getResponse T fuel (c.receive q) q with f | ⟨r, c₁⟩
      · rw [h_eq] at h
        cases h
      · rw [h_eq] at h
        have h_step : HolderStep T (q.IsRelease ∨ q.IsReset) (c.receive q).scsi.lockedBy
            c₁.scsi.lockedBy := holderStep_getResponse h_eq
        rw [lockedBy_finishResponse h]
        exact h_step
  -- the answer to a failure comes after it, and does nothing about it either
  unfold serve at h
  rcases h_eq : pushResponse T fuel c q with f | ⟨ifr, c₁⟩
  · rw [h_eq] at h
    cases h
  · rw [h_eq] at h
    have h_step := h_push h_eq
    dsimp only at h
    unfold replyToFailure at h
    split at h
    · cases h_build : buildReject T (some q) ifr with
      | empty =>
        rw [h_build] at h
        cases h
      | skipped =>
        rw [h_build] at h
        rw [← Except.ok.inj h]
        exact h_step
      | built p =>
        rw [h_build] at h
        rw [← Except.ok.inj h]
        exact h_step
    · rw [← Except.ok.inj h]
      exact h_step

end Pdus

/-! ### The end of a session -/

section End

variable {s : Scsi β} {id : ℕ}

/-- The end of a session gives the session's own reservation back, and no other. -/
theorem holderStep_endSession : HolderStep T True s.lockedBy (s.endSession T).lockedBy := by
  have h_sync : (s.sync T).2.lockedBy = s.lockedBy := Scsi.lockedBy_sync
  unfold Scsi.endSession
  dsimp only
  split
  · rw [← h_sync]
    exact Scsi.holderStep_unlockDevice
  · -- without the reservation, the end of a session is a sync
    exact .of_eq h_sync

/-- A session that ends has no reservation any more: the end of `handler`
unlocks the device when the thread is the one that has it. -/
theorem lockedBy_endSession_ne (hthreads : T.build.threads = true) :
    (s.endSession T).lockedBy ≠ some T.thread := by
  have h_status (s : Scsi β) (h : s.lockedBy = some T.thread) : s.lockingStatus T = .locked := by
    rw [Scsi.lockingStatus, if_pos hthreads, h]
    exact if_pos rfl
  unfold Scsi.endSession
  dsimp only
  split
  · -- it had one: `unlock_device` gives it back
    unfold Scsi.unlockDevice
    rw [if_pos hthreads]
    cases h_by : (s.sync T).2.lockedBy with
    | none =>
      dsimp only
      rw [h_by]
      rintro ⟨⟩
    | some id =>
      dsimp only
      split
      · rintro ⟨⟩
      · next h_ne =>
        rw [h_by]
        exact fun h_eq => h_ne (Option.some.inj h_eq)
  · -- it had none to begin with
    next h_not => exact fun h_by => h_not (h_status _ h_by)

/-- A session that is locked out ends without a trace. -/
theorem endSession_of_locked (hl : s.lockingStatus T = .lockedOther) : s.endSession T = s := by
  unfold Scsi.endSession
  dsimp only
  -- the reservation stops the sync, and there is nothing to unlock
  rw [Scsi.sync_of_locked hl]
  exact if_neg (by rw [hl]; rintro ⟨⟩)

end End

/-! ### Runs -/

namespace ServerState

variable (s : ServerState β)

/-- The session of thread `t` is alive and has the reservation. -/
def Holds (t : ℕ) : Prop := s.scsi.lockedBy = some t ∧ (s.sessions t).isSome

/-- A reservation is that of a session that is alive. This is the invariant: a
reservation cannot outlive the session that took it. -/
def HolderAlive : Prop := ∀ t, s.scsi.lockedBy = some t → (s.sessions t).isSome

/-- The same, with another backend state. -/
def withDisk (d : β) : ServerState β := { s with scsi := s.scsi.withDisk d }

end ServerState

namespace Server

variable (S : Server β) {s s' : ServerState β} {a : ServerAction}

/-- What a step needs and does. All sessions share one `Scsi`, so that each of
them finds what the others have done to the device and the reservation. -/
inductive Steps (s : ServerState β) : ServerAction → ServerState β → Prop
  | connect {t : ℕ} {ses : Session} (hnone : s.sessions t = none) :
    Steps s (.connect t ses) { s with sessions := Function.update s.sessions t (some ses) }
  | receive {t fuel : ℕ} {q : Pdu} {ses : Session} {c : Conn β} (hses : s.sessions t = some ses)
    (hserve : serve (S.target t) fuel { scsi := s.scsi, ses := ses } q = .ok c) :
    Steps s (.receive t fuel q)
      { scsi := c.scsi, sessions := Function.update s.sessions t (some c.ses) }
  | disconnect {t : ℕ} {ses : Session} (hses : s.sessions t = some ses) :
    Steps s (.disconnect t)
      { scsi := s.scsi.endSession (S.target t), sessions := Function.update s.sessions t none }

/-- The inversion of `step`, by which the other proofs go: what a step of each
kind needs, and the state after it. -/
theorem steps_of_step (h : S.step s a = .ok s') : S.Steps s a s' := by
  -- one step relation for each action, and none where the action is not possible
  cases a with
  | connect t ses =>
    simp only [step] at h
    split at h
    · cases h
    · next hnone =>
      obtain rfl := Except.ok.inj h
      exact .connect hnone
  | receive t fuel q =>
    simp only [step] at h
    split at h
    · cases h
    · next ses hses =>
      split at h
      · cases h
      · next c hserve =>
        obtain rfl := Except.ok.inj h
        exact .receive hses hserve
  | disconnect t =>
    simp only [step] at h
    split at h
    · cases h
    · next ses hses =>
      obtain rfl := Except.ok.inj h
      exact .disconnect hses

/-- What `Steps` describes is a step. -/
theorem step_of_steps (h : S.Steps s a s') : S.step s a = .ok s' := by
  cases h with
  | connect hnone => simp only [step, hnone]
  | receive hses hserve => simp only [step, hses, hserve]
  | disconnect hses => simp only [step, hses]

/-- A step keeps a reservation with a session that is alive. One that
disconnects gives it back, and only one that is connected can get it. -/
theorem holderAlive_step (hthreads : S.build.threads = true) (h : s.HolderAlive)
    (hstep : S.step s a = .ok s') : s'.HolderAlive := by
  -- whoever holds it after the step held it before, or has taken it with the step
  intro u hu
  cases S.steps_of_step hstep with
  | @connect t ses hnone =>
    -- the holder is alive, so it is not the session that connects
    have h_alive := h u hu
    dsimp only
    rwa [Function.update_of_ne]
    rintro rfl
    rw [hnone] at h_alive
    cases h_alive
  | @receive t fuel q ses c hses hserve =>
    dsimp only at hu ⊢
    by_cases hut : u = t
    · -- the thread that was served has a session still
      rw [hut, Function.update_self]
      rfl
    rw [Function.update_of_ne hut]
    -- any other holder had it before, as a thread takes it for itself only
    have h_step := holderStep_serve hserve
    rw [hu] at h_step
    dsimp only at h_step
    generalize h_by : s.scsi.lockedBy = by₀ at h_step
    cases h_step with
    | stays => exact h u h_by
    | takes => exact absurd (S.thread_eq t) hut
  | @disconnect t ses hses =>
    dsimp only at hu ⊢
    -- the session that ends does not hold it any more, so the holder is another one
    have h_build : (S.target t).build.threads = true := by rw [S.build_eq]; exact hthreads
    have h_ne := lockedBy_endSession_ne (s := s.scsi) h_build
    have h_step := holderStep_endSession (T := S.target t) (s := s.scsi)
    rw [S.thread_eq] at h_ne
    rw [hu] at h_ne h_step
    have hut : u ≠ t := fun h_eq => h_ne (congrArg some h_eq)
    rw [Function.update_of_ne hut]
    generalize h_by : s.scsi.lockedBy = by₀ at h_step
    cases h_step with
    | stays => exact h u h_by
    | takes => exact absurd (S.thread_eq t) hut

variable {S}

/-- **A step of another session than the holder's.** It leaves the medium and
the reservation as they are, and would do the same on any other medium of that
size. -/
theorem step_of_holds (hthreads : S.build.threads = true) {A : ℕ} (hA : s.Holds A)
    (hstep : S.step s a = .ok s') (hne : a.thread ≠ A) :
    s'.scsi.disk = s.scsi.disk ∧ s'.Holds A ∧
      ∀ d, S.backend.getSizeInBlocks d = S.backend.getSizeInBlocks s.scsi.disk →
        S.step (s.withDisk d) a = .ok (s'.withDisk d) := by
  obtain ⟨h_by, h_alive⟩ := hA
  have h_locked : s.scsi.lockingStatus (S.target a.thread) = .lockedOther := by
    rw [Scsi.lockingStatus, S.build_eq, if_pos hthreads, h_by, S.thread_eq]
    exact if_neg hne.symm
  have h_size (d : β)
      (hd : S.backend.getSizeInBlocks d = S.backend.getSizeInBlocks s.scsi.disk) :
      s.scsi.SameSize (S.target a.thread) d := by
    rw [Scsi.SameSize, S.backend_eq]
    exact hd
  have h_still (v : Option Session) : (Function.update s.sessions a.thread v A).isSome = true := by
    rwa [Function.update_of_ne hne.symm]
  -- each step with another medium in the place of the medium there is: the reservation keeps both
  -- out
  cases S.steps_of_step hstep with
  | @connect t ses hnone =>
    have h_step (d : β) : S.Steps (s.withDisk d) (.connect t ses)
        { scsi := s.scsi.withDisk d, sessions := Function.update s.sessions t (some ses) } :=
      .connect hnone
    exact ⟨rfl, ⟨h_by, h_still _⟩, fun d _ => step_of_steps S (h_step d)⟩
  | @receive t fuel q ses c hses hserve =>
    -- neither release nor reset: they free the reservation of the thread that asks
    have h_by' : c.scsi.lockedBy = some A := by
      have h_step := holderStep_serve hserve
      dsimp only at h_step
      rw [h_by] at h_step
      generalize c.scsi.lockedBy = by' at h_step
      cases h_step with
      | stays => rfl
      | gives hq => exact absurd (S.thread_eq t).symm hne
    refine ⟨disk_serve h_locked hserve, ⟨h_by', h_still _⟩, fun d hd => ?_⟩
    have h_serve := serve_withDisk (c := { scsi := s.scsi, ses := ses }) h_locked (h_size d hd)
      fuel q
    rw [show (S.target (ServerAction.receive t fuel q).thread) = S.target t from rfl, hserve]
      at h_serve
    have h_step : S.Steps (s.withDisk d) (.receive t fuel q)
        { scsi := (c.withDisk d).scsi
          sessions := Function.update s.sessions t (some (c.withDisk d).ses) } :=
      .receive hses h_serve
    exact step_of_steps S h_step
  | @disconnect t ses hses =>
    have h_end : s.scsi.endSession (S.target t) = s.scsi := endSession_of_locked h_locked
    have h_end' (d : β) : (s.scsi.withDisk d).endSession (S.target t) = s.scsi.withDisk d :=
      endSession_of_locked (s := s.scsi.withDisk d) h_locked
    rw [h_end]
    refine ⟨rfl, ⟨h_by, h_still _⟩, fun d _ => ?_⟩
    have h_step : S.Steps (s.withDisk d) (.disconnect t)
        { scsi := (s.scsi.withDisk d).endSession (S.target t)
          sessions := Function.update s.sessions t none } := .disconnect hses
    rw [h_end' d] at h_step
    exact step_of_steps S h_step

/-- **How a reservation is given back.** The session that has it disconnects, or
sends a RELEASE or a reset; no step of another session does it. -/
theorem frees_of_step {A : ℕ} (hA : s.Holds A) (hstep : S.step s a = .ok s')
    (hfree : ¬ s'.Holds A) :
    a = .disconnect A ∨
      ∃ fuel q, a = .receive A fuel q ∧ (q.IsRelease ∨ q.IsReset) := by
  obtain ⟨h_by, h_alive⟩ := hA
  -- a step that leaves it either keeps the holder, or is one of the holder's own
  cases S.steps_of_step hstep with
  | @connect t ses hnone =>
    refine absurd ⟨h_by, ?_⟩ hfree
    by_cases hAt : A = t
    · rw [hAt, hnone] at h_alive
      cases h_alive
    · exact (congrArg Option.isSome (Function.update_of_ne hAt _ _)).trans h_alive
  | @receive t fuel q ses c hses hserve =>
    have h_still : (Function.update s.sessions t (some c.ses) A).isSome = true := by
      by_cases hAt : A = t
      · rw [hAt, Function.update_self]
        rfl
      · rwa [Function.update_of_ne hAt]
    have h_step := holderStep_serve hserve
    dsimp only at h_step
    rw [h_by] at h_step
    generalize h_by' : c.scsi.lockedBy = by' at h_step
    cases h_step with
    | stays => exact absurd ⟨h_by', h_still⟩ hfree
    | gives hq =>
      rw [S.thread_eq]
      exact .inr ⟨fuel, q, rfl, hq⟩
  | @disconnect t ses hses =>
    have h_step := holderStep_endSession (T := S.target t) (s := s.scsi)
    rw [h_by] at h_step
    generalize h_by' : (s.scsi.endSession (S.target t)).lockedBy = by' at h_step
    by_cases hAt : A = t
    · exact .inl (by rw [hAt])
    cases h_step with
    | stays =>
      refine absurd ⟨h_by', ?_⟩ hfree
      exact (congrArg Option.isSome (Function.update_of_ne hAt _ _)).trans h_alive
    | gives => exact absurd (S.thread_eq t) hAt

/-- **A reservation is exclusive**, in every reachable state of a server that
starts without one, for any number of sessions and however their commands and
disconnects are interleaved. -/
theorem reservation_exclusive (hthreads : S.build.threads = true) {scsi : Scsi β}
    (hfree : scsi.lockedBy = none) {as : List ServerAction}
    (hrun : Machine.run S.step { scsi := scsi } as = .ok s) :
    -- at most one session that is alive holds the reservation, and it is held by none else
    (∀ t u, s.Holds t → s.Holds u → t = u) ∧ s.HolderAlive ∧
      -- while `A` holds it, the others can do nothing about it and nothing to the medium, and
      -- what the medium stores has no part in what they do
      (∀ A a s', s.Holds A → S.step s a = .ok s' → a.thread ≠ A →
        s'.scsi.disk = s.scsi.disk ∧ s'.Holds A ∧
          ∀ d, S.backend.getSizeInBlocks d = S.backend.getSizeInBlocks s.scsi.disk →
            S.step (s.withDisk d) a = .ok (s'.withDisk d)) ∧
      -- what frees it
      (∀ A a s', s.Holds A → S.step s a = .ok s' → ¬ s'.Holds A → a = .disconnect A ∨
        ∃ fuel q, a = .receive A fuel q ∧ (q.IsRelease ∨ q.IsReset)) ∧
      -- the end of a session does
      ∀ A s', S.step s (.disconnect A) = .ok s' → s'.scsi.lockedBy ≠ some A := by
  refine ⟨fun t u ht hu => Option.some.inj (ht.1.symm.trans hu.1), ?_,
    fun A a s' hA hstep hne => step_of_holds hthreads hA hstep hne,
    fun A a s' hA hstep hno => frees_of_step hA hstep hno, fun A s' hstep => ?_⟩
  · refine Machine.run_induction (P := fun _ _ => True) (I := ServerState.HolderAlive)
      (fun s a s' h _ hstep => holderAlive_step S hthreads h hstep) as _ _ ?_
      (Machine.along_of_forall (fun _ _ => trivial) _ _) hrun
    intro t ht
    exact absurd (hfree.symm.trans ht) nofun
  · cases S.steps_of_step hstep with
    | disconnect hses =>
      have h_ne := lockedBy_endSession_ne (T := S.target A) (s := s.scsi)
        (by rw [S.build_eq]; exact hthreads)
      rwa [S.thread_eq] at h_ne

end Server

/-! ### Two sessions -/

namespace Sample

/-- A server on the device in memory. -/
def server : Server Ram where
  build := .posix
  backend := (target 8).backend
  target t := { target 8 with thread := t }
  build_eq _ := rfl
  backend_eq _ := rfl
  thread_eq _ := rfl

/-- Thread 1 reserves the device; thread 2 tries to write to it, to reset it and
to free it. -/
def contention : List ServerAction :=
  [.connect 1 (newSession (target 8)), .connect 2 (newSession (target 8)),
    .receive 1 8 (command 1 0 (cdb6 0x16 0 0 0) [] Pdu.nil_lt),
    .receive 2 8 (command 2 16 (cdb10 0x2a 0 2 1) (block 9)),
    .receive 2 8 { bhs := header 0x02 0x85 3 0 (Vector.replicate 16 0), data := [],
                     data_lt := Pdu.nil_lt },
    .receive 2 8 (command 4 0 (cdb6 0x17 0 0 0) [] Pdu.nil_lt)]

end Sample

open Sample in
/-- The reservation holds. -/
theorem Server.reservation_exclusive_contention :
    ∃ s, Machine.run server.step { scsi := { disk := ram [] } } contention = .ok s ∧
      s.Holds 1 ∧ ¬ s.Holds 2 := by
  have h_eval : (Machine.run server.step { scsi := { disk := ram [] } }
      contention).toOption.any (fun s =>
        decide (s.scsi.lockedBy = some 1 ∧ (s.sessions 1).isSome = true)) = true := by
    decide +kernel
  obtain ⟨s, h_run, h_one⟩ := Machine.exists_ok_of_any h_eval
  refine ⟨s, h_run, h_one, fun h_two => ?_⟩
  have h_same := (reservation_exclusive rfl rfl h_run).1 1 2 h_one h_two
  exact absurd h_same (by decide)

end IscsiTarget
