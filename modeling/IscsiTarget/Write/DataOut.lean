import IscsiTarget.Lib.Extent
import IscsiTarget.Write.Command

/-!
# A Data-Out PDU

The counterpart of `Write.Command`: `DataOutOutcome` lists the ways in which the
handling of a Data-Out can end, and `serve_dataOut` says that one of them is
taken. A Data-Out that is not refused is `Delivered`: it is empty, or its data is
written, synced if the command asked for it, and counted. With the F bit set
`closeBatch` follows: a GOOD response in any case, then either the R2T session
goes away or an R2T asks for the rest.

The answer to an error is a SCSI Response with status 9 (`ioErrorPdu`).
-/

namespace IscsiTarget

namespace Pdu

variable (q : Pdu)

/-- The tag a Data-Out is looked up under. -/
def tag : UInt32 := dataOutTag q.bhs

/-- The buffer offset of a Data-Out. -/
def offset : ℕ := q.bhs.getBufferOffset.toNat

/-- Offset and length of a Data-Out are multiples of the block size. -/
def Aligned (bs : ℕ) : Prop := q.offset % bs = 0 ∧ q.data.length % bs = 0

instance (bs : ℕ) : Decidable (q.Aligned bs) := inferInstanceAs (Decidable (_ ∧ _))

/-- The part of the task's buffer a Data-Out carries. -/
def extent : Extent := ⟨q.offset, q.data.length⟩

end Pdu

variable {β : Type} (T : Target β)

/-- The GOOD response to the command of an R2T session. -/
def goodPdu (session : R2tSession) : PduOut :=
  .scsiResponse (.set T session.pduInitiator [] none none)

/-- The R2T that asks for the rest. -/
def restPdu (session : R2tSession) (transferTag : UInt32) : PduOut :=
  .r2t (.set T session.pduInitiator transferTag session.bytesDone session.bytesLeft)

/-- The response to a PDU that ended in an I/O error. -/
def ioErrorPdu (q : Pdu) : PduOut :=
  .scsiResponse (.set T q.bhs errorReadError none (some 0x09))

/-- The data of a Data-Out on its way to the backend. -/
def writtenDataOut (c : Conn β) (q : Pdu) (session : R2tSession) : RwResult × Scsi β :=
  writeDataOut T (c.receive q).scsi session q.bhs.getBufferOffset q.data

/-- The end of a burst, sends included. GOOD is sent in any case; when data is
still missing, an R2T for the rest follows it. -/
def closeBatch (c : Conn β) (session : R2tSession) (transferTag : UInt32) : Conn β :=
  if session.bytesLeft = 0 then
    ({ c with ses := c.ses.removeR2tSession transferTag } : Conn β).emit T (goodPdu T session)
  else if T.send c.scsi.history then
    (c.emit T (goodPdu T session)).emit T (restPdu T session transferTag)
  else c.emit T (goodPdu T session)

/-- The Data-Out is not refused: the R2T session and the connection it leaves,
before anything is sent. -/
inductive Delivered (c : Conn β) (q : Pdu) (session : R2tSession) : R2tSession → Conn β → Prop
  | empty (hd : q.data = []) : Delivered c q session session (c.receive q)
  | data (hd : q.data ≠ []) (halign : q.Aligned T.blockSize)
    (hwritten : (writtenDataOut T c q session).1 = .ok)
    (hsync : session.fua = true →
      ((writtenDataOut T c q session).2.sync T).1.eqFalse = false) :
    Delivered c q session (session.advance (UInt32.ofNat q.data.length))
      { scsi := syncedIf T session.fua (writtenDataOut T c q session).2
        ses := c.ses.setR2tSession q.tag (session.advance (UInt32.ofNat q.data.length)) }

/-- The ways the handling of a Data-Out ends, one for each branch of
`push_response`. Only the last two take the data for received, and only the last
one sends GOOD. -/
inductive DataOutOutcome (c : Conn β) (q : Pdu) : Conn β → Prop
  /-- There is no R2T session for it. -/
  | unknown (hses : c.ses.getR2tSesion q.tag = none) : DataOutOutcome c q (c.receive q)
  /-- There is nothing in it, or it is not aligned. -/
  | refused {session : R2tSession} (hses : c.ses.getR2tSesion q.tag = some session)
    (hbad : q.data = [] ∧ q.bhs.getF = false ∨ q.data ≠ [] ∧ ¬ q.Aligned T.blockSize) :
    DataOutOutcome c q (c.receive q)
  /-- The write failed. -/
  | writeFailed {session : R2tSession} (hses : c.ses.getR2tSesion q.tag = some session)
    (hd : q.data ≠ []) (halign : q.Aligned T.blockSize)
    (hwritten : (writtenDataOut T c q session).1 ≠ .ok) :
    DataOutOutcome c q (({ c with scsi := (writtenDataOut T c q session).2 } : Conn β).emit T
      (ioErrorPdu T q))
  /-- The sync returned the enumerator that equals `false`. -/
  | syncFalse {session : R2tSession} (hses : c.ses.getR2tSesion q.tag = some session)
    (hd : q.data ≠ []) (halign : q.Aligned T.blockSize)
    (hwritten : (writtenDataOut T c q session).1 = .ok) (hfua : session.fua = true)
    (hsync : ((writtenDataOut T c q session).2.sync T).1.eqFalse = true) :
    DataOutOutcome c q
      (({ c with scsi := ((writtenDataOut T c q session).2.sync T).2 } : Conn β).emit T
        (ioErrorPdu T q))
  /-- The data is taken, more is to come. -/
  | delivered {session session' : R2tSession} {c' : Conn β}
    (hses : c.ses.getR2tSesion q.tag = some session) (hd : q.data ≠ [])
    (hdel : Delivered T c q session session' c') (hF : q.bhs.getF = false) :
    DataOutOutcome c q c'
  /-- The data is taken, and a burst ends. -/
  | finished {session session' : R2tSession} {c' : Conn β}
    (hses : c.ses.getR2tSesion q.tag = some session)
    (hdel : Delivered T c q session session' c') (hF : q.bhs.getF = true) :
    DataOutOutcome c q (closeBatch T c' session' q.tag)

variable {T}

/-! ### The end of a burst -/

theorem finishResponse_endOfBatch (fuel : ℕ) (c : Conn β) (q : Pdu) (session : R2tSession)
    (transferTag : UInt32) :
    ∃ ok, finishResponse T fuel q
        (some (endOfBatch T c session transferTag).1, (endOfBatch T c session transferTag).2) =
      .ok (sendReason ok, closeBatch T c session transferTag) := by
  unfold endOfBatch closeBatch
  split
  · -- GOOD, and the entry is removed
    refine ⟨T.send c.scsi.history, ?_⟩
    simp [finishResponse, emitResponseSet, scsiCmdGetResponseAfterData,
      emitReplies_single (T := T) (r := .scsiResponse _) rfl, goodPdu]
  · -- GOOD, and an R2T for the rest, which is sent only if GOOD has gone out
    by_cases h : T.send c.scsi.history = true
    · refine ⟨T.send (c.emit T (goodPdu T session)).scsi.history, ?_⟩
      simp [finishResponse, emitResponseSet, scsiCmdGetResponseAfterData,
        emitReplies_pair (T := T) (r := .scsiResponse _) (u := .r2t _) rfl rfl, goodPdu,
        restPdu, h]
    · refine ⟨false, ?_⟩
      simp [finishResponse, emitResponseSet, scsiCmdGetResponseAfterData,
        emitReplies_pair (T := T) (r := .scsiResponse _) (u := .r2t _) rfl rfl, goodPdu, h,
        sendReason]

/-! ### The trace -/

/-- The data of a Data-Out makes writes and trims only. -/
theorem writes_writtenDataOut (c : Conn β) (q : Pdu) (session : R2tSession) :
    ∃ evs, Scsi.Writes T (c.receive q).scsi (writtenDataOut T c q session).1
      (writtenDataOut T c q session).2 evs := by
  unfold writtenDataOut writeDataOut
  dsimp only
  split
  · split
    · exact Scsi.writes_trim _ _ _
    · exact Scsi.writes_writeSameBlocks _ _ _ _ _
  · exact Scsi.writes_write _ _ _ _

theorem transfers_writtenDataOut (c : Conn β) (q : Pdu) (session : R2tSession) :
    ∃ evs, Scsi.Transfers T (c.receive q).scsi (writtenDataOut T c q session).1
      (writtenDataOut T c q session).2 evs :=
  (writes_writtenDataOut c q session).imp fun _ h => h.toTransfers

theorem extends_closeBatch (c : Conn β) (session : R2tSession) (transferTag : UInt32) :
    c.Extends (closeBatch T c session transferTag) := by
  unfold closeBatch
  split
  · exact ((Conn.Extends.refl c).move ⟨[], .refl _⟩ _).trans (.emit _ _)
  · split
    · exact (Conn.Extends.emit c _).trans (.emit _ _)
    · exact .emit c _

theorem extends_writtenDataOut (c : Conn β) (q : Pdu) (session : R2tSession) (ses : Session) :
    c.Extends { scsi := (writtenDataOut T c q session).2, ses := ses } := by
  obtain ⟨evs, h⟩ := transfers_writtenDataOut (T := T) c q session
  exact (Conn.Extends.receive c q).trans ⟨evs, h.does⟩

theorem Delivered.extends {c c' : Conn β} {q : Pdu} {session session' : R2tSession}
    (h : Delivered T c q session session' c') : c.Extends c' := by
  cases h with
  | empty hd => exact .receive c q
  | data hd halign hwritten hsync =>
    obtain ⟨evs, h_sync, -⟩ := does_syncedIf (T := T) session.fua (writtenDataOut T c q session).2
    exact (extends_writtenDataOut c q session c.ses).move ⟨evs, h_sync⟩ _

/-- The R2T session it leaves is the one in the table. -/
theorem Delivered.getR2tSesion {c c' : Conn β} {q : Pdu} {session session' : R2tSession}
    (h : Delivered T c q session session' c') (hses : c.ses.getR2tSesion q.tag = some session) :
    c'.ses.getR2tSesion q.tag = some session' := by
  cases h with
  | empty hd => exact hses
  | data hd halign hwritten hsync => exact Session.getR2tSesion_setR2tSession _ _ _

/-- **A Data-Out makes the trace longer** and leaves the reservation. -/
theorem DataOutOutcome.extends {c c' : Conn β} {q : Pdu} (h : DataOutOutcome T c q c') :
    c.Extends c' := by
  cases h with
  | unknown hses => exact .receive c q
  | refused hses hbad => exact .receive c q
  | @writeFailed session hses hd halign hwritten =>
    exact (extends_writtenDataOut c q session c.ses).trans (.emit _ _)
  | @syncFalse session hses hd halign hwritten hfua hsync =>
    obtain ⟨evs, h_sync, -⟩ := Scsi.does_sync (T := T) (writtenDataOut T c q session).2
    exact ((extends_writtenDataOut c q session c.ses).move ⟨evs, h_sync⟩ c.ses).trans (.emit _ _)
  | delivered hses hd hdel hF => exact hdel.extends
  | finished hses hdel hF => exact hdel.extends.trans (extends_closeBatch _ _ _)

/-- For a WRITE the data goes to the backend in one call. -/
theorem writtenDataOut_of_write {session : R2tSession} (h : session.isWriteSame = false)
    (c : Conn β) (q : Pdu) :
    writtenDataOut T c q session = (c.receive q).scsi.write T
      (session.bufferLba + UInt64.ofNat (q.offset / T.blockSize))
      (UInt32.ofNat (q.data.length / T.blockSize)) q.data := by
  unfold writtenDataOut writeDataOut
  simp only [h]
  rfl

/-! ### What the end of a burst leaves -/

@[simp] theorem closeBatch_disk (c : Conn β) (session : R2tSession) (transferTag : UInt32) :
    (closeBatch T c session transferTag).scsi.disk = c.scsi.disk := by
  unfold closeBatch
  split
  · rfl
  · split <;> rfl

/-- Nothing is missing: the R2T session is gone. -/
theorem getR2tSesion_closeBatch_of_zero (c : Conn β) {session : R2tSession} (transferTag : UInt32)
    (h : session.bytesLeft = 0) :
    (closeBatch T c session transferTag).ses.getR2tSesion transferTag = none := by
  rw [closeBatch, if_pos h]
  exact Session.getR2tSesion_removeR2tSession _ _

/-- Something is missing: the table stays as it is. -/
theorem closeBatch_ses_of_ne_zero (c : Conn β) {session : R2tSession} (transferTag : UInt32)
    (h : session.bytesLeft ≠ 0) : (closeBatch T c session transferTag).ses = c.ses := by
  rw [closeBatch, if_neg h]
  split <;> rfl

/-! ### The outcomes -/

/-- The error branch of the handler after `push_response`. -/
theorem serve_of_push {fuel : ℕ} {c c' c'' : Conn β} {q : Pdu} {ifr : FailReason}
    {reply : FailureReply} (hpush : pushResponse T fuel c q = .ok (ifr, c'))
    (hreply : replyToFailure T c' (some q) ifr = .ok (reply, c'')) :
    serve T fuel c q = .ok c'' := by
  simp [serve, hpush, hreply, Except.map]

/-- `push_response` for a Data-Out that is not taken. -/
theorem pushResponse_of_error {fuel : ℕ} {c c' : Conn β} {q : Pdu} {ifr : FailReason}
    (hop : q.bhs.getOpcode = .scsiDataOut)
    (h : handleDataOut T (c.receive q) q = (.error ifr, c')) :
    pushResponse T fuel c q = .ok (ifr, c') := by
  have h' : handleDataOut T { c with scsi := c.scsi.note (.received q) } q =
    (.error ifr, c') := h
  rw [pushResponse, if_pos hop, h']

/-- `push_response` for a Data-Out that is taken. -/
theorem pushResponse_of_ok {fuel : ℕ} {c c' : Conn β} {q : Pdu} {r : Option ResponseSet}
    (hop : q.bhs.getOpcode = .scsiDataOut)
    (h : handleDataOut T (c.receive q) q = (.ok r, c')) :
    pushResponse T fuel c q = finishResponse T fuel q (r, c') := by
  have h' : handleDataOut T { c with scsi := c.scsi.note (.received q) } q = (.ok r, c') := h
  rw [pushResponse, if_pos hop, h']

/-- A Data-Out that is refused leaves nothing but its trace. -/
theorem serve_of_invalidField {fuel : ℕ} {c : Conn β} {q : Pdu}
    (hop : q.bhs.getOpcode = .scsiDataOut)
    (h : handleDataOut T (c.receive q) q = (.error .invalidField, c.receive q)) :
    serve T fuel c q = .ok (c.receive q) :=
  serve_of_push (pushResponse_of_error hop h) (replyToFailure_invalidField_dataOut _ hop)

/-- A Data-Out that ended in an I/O error is answered. -/
theorem serve_of_ioError {fuel : ℕ} {c c' : Conn β} {q : Pdu}
    (hop : q.bhs.getOpcode = .scsiDataOut)
    (h : handleDataOut T (c.receive q) q = (.error .ioError, c')) :
    serve T fuel c q = .ok (c'.emit T (ioErrorPdu T q)) :=
  serve_of_push (pushResponse_of_error hop h) (replyToFailure_ioError _ q)

/-- A Data-Out that is taken without the F bit is not answered. -/
theorem serve_of_taken {fuel : ℕ} {c c' : Conn β} {q : Pdu}
    (hop : q.bhs.getOpcode = .scsiDataOut)
    (h : handleDataOut T (c.receive q) q = (.ok none, c')) : serve T fuel c q = .ok c' :=
  serve_of_push (pushResponse_of_ok hop h) (replyToFailure_ok _ _)

/-- A Data-Out that is taken with the F bit closes the burst. -/
theorem serve_of_endOfBatch {fuel : ℕ} {c c' : Conn β} {q : Pdu} {session : R2tSession}
    (hop : q.bhs.getOpcode = .scsiDataOut)
    (h : handleDataOut T (c.receive q) q =
      (.ok (some (endOfBatch T c' session q.tag).1), (endOfBatch T c' session q.tag).2)) :
    serve T fuel c q = .ok (closeBatch T c' session q.tag) := by
  obtain ⟨ok, hok⟩ := finishResponse_endOfBatch (T := T) fuel c' q session q.tag
  exact serve_of_push ((pushResponse_of_ok hop h).trans hok) (replyToFailure_sendReason _ _ ok)

/-- Without an R2T session a Data-Out leaves nothing but its trace. -/
theorem DataOutOutcome.eq_receive {c c' : Conn β} {q : Pdu} (h : DataOutOutcome T c q c')
    (hnone : c.ses.getR2tSesion q.tag = none) : c' = c.receive q := by
  cases h with
  | unknown hses => rfl
  | refused hses hbad => rfl
  | writeFailed hses hd halign hwritten => exact absurd (hnone.symm.trans hses) (by simp)
  | syncFalse hses hd halign hwritten hfua hsync =>
    exact absurd (hnone.symm.trans hses) (by simp)
  | delivered hses hd hdel hF => exact absurd (hnone.symm.trans hses) (by simp)
  | finished hses hdel hF => exact absurd (hnone.symm.trans hses) (by simp)

/-! ### Storing the data -/

/-- Past the checks of offset and length. What is left is the write and, for a
command with FUA, the sync behind it. -/
theorem storeDataOut_of_aligned {c : Conn β} {q : Pdu} {session : R2tSession}
    (h : q.Aligned T.blockSize) :
    storeDataOut T (c.receive q).scsi session q.bhs.getBufferOffset q.data =
      if (writtenDataOut T c q session).1 ≠ .ok then
        (.error .ioError, (writtenDataOut T c q session).2)
      else if session.fua then
        if ((writtenDataOut T c q session).2.sync T).1.eqFalse then
          (.error .ioError, ((writtenDataOut T c q session).2.sync T).2)
        else (.ok (session.advance (UInt32.ofNat q.data.length)),
          ((writtenDataOut T c q session).2.sync T).2)
      else (.ok (session.advance (UInt32.ofNat q.data.length)),
        (writtenDataOut T c q session).2) := by
  have h_offset : ¬ q.bhs.getBufferOffset.toNat % T.blockSize ≠ 0 := not_not.mpr h.1
  rw [storeDataOut, if_neg h_offset, if_neg (not_not.mpr h.2)]
  rfl

/-- Data that is written, and synced if need be. The session has advanced by its
length. -/
theorem storeDataOut_of_delivered {c : Conn β} {q : Pdu} {session : R2tSession}
    (h : q.Aligned T.blockSize) (hwritten : (writtenDataOut T c q session).1 = .ok)
    (hsync : session.fua = true →
      ((writtenDataOut T c q session).2.sync T).1.eqFalse = false) :
    storeDataOut T (c.receive q).scsi session q.bhs.getBufferOffset q.data =
      (.ok (session.advance (UInt32.ofNat q.data.length)),
        syncedIf T session.fua (writtenDataOut T c q session).2) := by
  rw [storeDataOut_of_aligned h, if_neg (not_not.mpr hwritten)]
  unfold syncedIf
  by_cases hfua : session.fua = true
  · rw [if_pos hfua, if_pos hfua, hsync hfua]
    rfl
  · rw [if_neg hfua, if_neg hfua]

/-- **A Data-Out ends in one of the six ways**, and never in a fault. They are
gone through in the order of the code. -/
theorem serve_dataOut (fuel : ℕ) (c : Conn β) {q : Pdu} (hop : q.bhs.getOpcode = .scsiDataOut) :
    ∃ c', serve T fuel c q = .ok c' ∧ DataOutOutcome T c q c' := by
  -- the tests of `push_response` in their order: the R2T session, whether there is data, its place
  -- and length, the write, the sync, and the F bit
  cases hses : c.ses.getR2tSesion q.tag with
  | none =>
    have hses' : (c.receive q).ses.getR2tSesion (dataOutTag q.bhs) = none := hses
    refine ⟨_, serve_of_invalidField hop ?_, .unknown hses⟩
    simp only [handleDataOut, hses']
  | some session =>
    have hses' : (c.receive q).ses.getR2tSesion (dataOutTag q.bhs) = some session := hses
    by_cases hd : q.data = []
    · cases hF : q.bhs.getF with
      | false =>
        refine ⟨_, serve_of_invalidField hop ?_, .refused hses (.inl ⟨hd, hF⟩)⟩
        simp only [handleDataOut, hses', hd, hF]
        rfl
      | true =>
        have h_handle : handleDataOut T (c.receive q) q =
            (.ok (some (endOfBatch T (c.receive q) session q.tag).1),
              (endOfBatch T (c.receive q) session q.tag).2) := by
          simp only [handleDataOut, hses', hd, hF]
          rfl
        exact ⟨_, serve_of_endOfBatch hop h_handle, .finished hses (.empty hd) hF⟩
    · by_cases halign : q.Aligned T.blockSize
      · by_cases hwritten : (writtenDataOut T c q session).1 = .ok
        · by_cases hsync : session.fua = true ∧
              ((writtenDataOut T c q session).2.sync T).1.eqFalse = true
          · refine ⟨_, serve_of_ioError hop ?_,
              .syncFalse hses hd halign hwritten hsync.1 hsync.2⟩
            simp only [handleDataOut, hses', storeDataOut_of_aligned halign, hwritten, hsync.1,
              hsync.2]
            rw [if_pos hd]
            rfl
          · have hsync' : session.fua = true →
                ((writtenDataOut T c q session).2.sync T).1.eqFalse = false := by
              intro hfua
              simpa [hfua] using hsync
            have hdel := Delivered.data hd halign hwritten hsync'
            cases hF : q.bhs.getF with
            | false =>
              refine ⟨_, serve_of_taken hop ?_, .delivered hses hd hdel hF⟩
              simp only [handleDataOut, hses', storeDataOut_of_delivered halign hwritten hsync']
              rw [if_pos hd, hF]
              rfl
            | true =>
              refine ⟨_, serve_of_endOfBatch hop ?_, .finished hses hdel hF⟩
              simp only [handleDataOut, hses', storeDataOut_of_delivered halign hwritten hsync']
              rw [if_pos hd, hF]
              rfl
        · refine ⟨_, serve_of_ioError hop ?_, .writeFailed hses hd halign hwritten⟩
          simp only [handleDataOut, hses', storeDataOut_of_aligned halign]
          rw [if_pos hd, if_pos hwritten]
          rfl
      · refine ⟨_, serve_of_invalidField hop ?_, .refused hses (.inr ⟨hd, halign⟩)⟩
        have hstore : storeDataOut T (c.receive q).scsi session q.bhs.getBufferOffset q.data =
            (.error .invalidField, (c.receive q).scsi) := by
          unfold storeDataOut
          unfold Pdu.Aligned Pdu.offset at halign
          split
          · rfl
          · rw [if_pos (by tauto)]
        simp only [handleDataOut, hses', hstore]
        rw [if_pos hd]

/-! ### The effect on the medium -/

variable {medium : β → Medium UInt8} {c : Conn β} {q : Pdu} {session : R2tSession}

/-- The blocks of an aligned Data-Out, as a number of blocks. -/
theorem Pdu.Aligned.blocks_le {bs n : ℕ} (h : q.Aligned bs) (hpos : 0 < bs)
    (hin : q.offset + q.data.length ≤ n * bs) : q.offset / bs + q.data.length / bs ≤ n := by
  have h_off := Nat.div_add_mod' q.offset bs
  have h_len := Nat.div_add_mod' q.data.length bs
  rw [h.1] at h_off
  rw [h.2] at h_len
  refine Nat.le_of_mul_le_mul_right (c := bs) ?_ hpos
  rw [Nat.add_mul]
  omega

/-- **The data of a Data-Out that is written**, on the medium: at the address of
the buffer, as far in as the offset says. -/
theorem writtenDataOut_medium (hB : T.backend.Stores medium) {n : ℕ}
    (hsame : session.isWriteSame = false) (halign : q.Aligned T.blockSize)
    (hin : q.offset + q.data.length ≤ n * T.blockSize)
    (hdev : session.bufferLba.toNat + n ≤ c.scsi.size T)
    (hok : (writtenDataOut T c q session).1 = .ok) :
    medium (writtenDataOut T c q session).2.disk =
        (medium c.scsi.disk).store (session.bufferLba.toNat * T.blockSize + q.offset) q.data ∧
      (writtenDataOut T c q session).2.size T = c.scsi.size T := by
  have h_size : c.scsi.size T < 2 ^ 64 := (c.scsi.getSizeInBlocks T).toNat_lt
  have h_blocks := halign.blocks_le T.blockSize_pos hin
  have h_div : q.data.length / T.blockSize ≤ q.data.length := Nat.div_le_self _ _
  have h_data := q.data_lt
  have h_n : (UInt32.ofNat (q.data.length / T.blockSize)).toNat = q.data.length / T.blockSize :=
    toNat_ofNat_32 (by omega)
  have h_lba : (session.bufferLba + UInt64.ofNat (q.offset / T.blockSize)).toNat =
      session.bufferLba.toNat + q.offset / T.blockSize := toNat_add_ofNat (by omega)
  have h_len : (UInt32.ofNat (q.data.length / T.blockSize)).toNat * T.blockSize =
      q.data.length := by
    rw [h_n]
    exact Nat.div_mul_cancel (Nat.dvd_of_mod_eq_zero halign.2)
  -- the block the offset leads to begins at the byte it names, since it is a multiple of the block
  -- size
  have h_off : (session.bufferLba.toNat + q.offset / T.blockSize) * T.blockSize =
      session.bufferLba.toNat * T.blockSize + q.offset := by
    rw [Nat.add_mul, Nat.div_mul_cancel (Nat.dvd_of_mod_eq_zero halign.1)]
  rw [writtenDataOut_of_write hsame] at hok ⊢
  obtain ⟨-, h_ok, h_disk⟩ := Scsi.write_ok hok
  have h_range : T.backend.InRange (c.receive q).scsi.disk
      (session.bufferLba + UInt64.ofNat (q.offset / T.blockSize))
      (UInt32.ofNat (q.data.length / T.blockSize)) := by
    change _ ≤ c.scsi.size T
    rw [h_lba, h_n]
    omega
  constructor
  · rw [h_disk, Scsi.writeBackend_medium hB h_range h_len.le h_ok, h_lba, h_off, h_len,
      List.take_length]
    rfl
  · rw [Scsi.size, Scsi.getSizeInBlocks, h_disk, Scsi.writeBackend_size hB h_range]
    rfl

/-- A sync the command asked for does not change the medium. -/
theorem syncedIf_medium (hB : T.backend.Stores medium) (fua : Bool) (s : Scsi β) :
    medium (syncedIf T fua s).disk = medium s.disk ∧ (syncedIf T fua s).size T = s.size T := by
  cases fua with
  | false => exact ⟨rfl, rfl⟩
  | true => exact Scsi.sync_medium hB s

end IscsiTarget
