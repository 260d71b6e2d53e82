import IscsiTarget.Write.Immediate

/-!
# A WRITE command

`WriteOutcome` lists the ways in which the handling of a WRITE command can end,
each with its guard and with the state the connection is left in. `serve_write`
says that one of them is taken, so every property of the command step is a case
analysis over six cases and nothing unfolds `writeVerify` again.

Immediate data is stored first (`storeImmediate`); the outcome then depends on
whether the amount of data is what the command asks for (`Complete`) and, if it
is not, on whether the command and the PDU around it agree about that amount.
-/

namespace IscsiTarget

/-- The opcodes that end up in `write_verify`. -/
def ScsiOpcode.isWrite : ScsiOpcode → Bool
  | .write6 | .write10 | .writeVerify10 | .write12 | .write16 => true
  | _ => false

namespace Pdu

variable (q : Pdu)

/-- The PDU is a WRITE command. -/
structure IsWrite : Prop where
  opcode : q.bhs.getOpcode = .scsiCmd
  write : q.bhs.getCdb.opcode.isWrite = true

/-- The address of the command. -/
def lba : UInt64 := q.bhs.getCdb.range.1

/-- The number of blocks of the command. -/
def nBlocks : UInt32 := q.bhs.getCdb.range.2

/-- The bit the code takes for FUA. -/
def fua : Bool := Scsi.fuaBit q.bhs.getCdb

end Pdu

variable {β : Type} (T : Target β)

/-- The number of bytes the command asks for. -/
def nBytesOf (q : Pdu) : ℕ := T.nBytes q.nBlocks

/-- The number of whole blocks in the immediate data. -/
def immediateBlocks (q : Pdu) : ℕ := q.data.length / T.blockSize

/-- The command comes with all its data, or needs none. -/
def Complete (q : Pdu) : Prop :=
  if q.data = [] then q.nBlocks = 0 else q.data.length = T.build.sizeT (nBytesOf T q)

instance (q : Pdu) : Decidable (Complete T q) := inferInstanceAs (Decidable (ite _ _ _))

/-- What `validate_request` says about the command. -/
def writeCheck (c : Conn β) (q : Pdu) : Option Bytes :=
  c.scsi.validateRequest T q.lba q.nBlocks (some q.bhs.getCdb)

/-- The immediate data on its way to the backend. -/
def storedImmediate (c : Conn β) (q : Pdu) : RwResult × Scsi β :=
  (c.receive q).scsi.storeImmediate T q.lba q.nBlocks q.data

/-- The R2T session `write_verify` asks for. -/
def r2tOf (q : Pdu) : R2tSession :=
  Scsi.r2tFor T q.lba q.nBlocks q.fua (immediateBlocks T q)

/-- The R2T session as it is registered: with the command it belongs to. -/
def taskOf (q : Pdu) : R2tSession := { r2tOf T q with fua := q.fua, pduInitiator := q.bhs }

/-- The tag a WRITE command gets its Data-Outs under. -/
def commandTag (c : Conn β) (q : Pdu) : UInt32 :=
  (chooseTtt T (storedImmediate T c q).2.history q.bhs.getItasktag).1

/-- A SCSI Response to the PDU. -/
def statusPdu (q : Pdu) (sense : Bytes) (residual : Option (Residual × UInt32)) : PduOut :=
  .scsiResponse (.set T q.bhs sense residual
    (if sense = errorReservationConflict1 then some 0x18 else none))

/-- The state after immediate data that completes the command: with FUA the
backend is told to sync. -/
def syncedIf (fua : Bool) (s : Scsi β) : Scsi β := if fua then (s.sync T).2 else s

/-- The connection once an R2T session for the command is registered and the R2T
sent. Nothing is sent when no tag could be chosen. -/
def openR2t (rs : R2tSession) (c : Conn β) (q : Pdu) : Conn β :=
  let choice := chooseTtt T c.scsi.history q.bhs.getItasktag
  ({ c with ses := c.ses.initR2tSession rs rs.fua q.bhs choice.1 } : Conn β).answer T
    (if choice.2 then some (.r2t (.set T q.bhs choice.1 rs.bytesDone rs.bytesLeft)) else none)

/-- The connection once the transfer for what is missing of a WRITE is opened. -/
def openTransfer (c : Conn β) (q : Pdu) : Conn β := openR2t T (r2tOf T q) c q

/-- The ways the handling of a WRITE command ends, one for each branch of
`write_verify` and of `get_response`, with the connection it leaves behind. They
exclude each other, since each comes with the tests that lead to it. -/
inductive WriteOutcome (c : Conn β) (q : Pdu) : Conn β → Prop
  /-- The command is refused. -/
  | refused {sense : Bytes} (hcheck : writeCheck T c q = some sense) :
    WriteOutcome c q ((c.receive q).emit T (statusPdu T q sense none))
  /-- The device is reserved by another session. -/
  | conflict (hcheck : writeCheck T c q = none)
    (hstored : (storedImmediate T c q).1 = .failLocked) :
    WriteOutcome c q (({ c with scsi := (storedImmediate T c q).2 } : Conn β).emit T
      (statusPdu T q errorReservationConflict1 none))
  /-- The backend failed: nothing is sent. -/
  | failed (hcheck : writeCheck T c q = none)
    (hstored : (storedImmediate T c q).1 = .failGeneral) :
    WriteOutcome c q { c with scsi := (storedImmediate T c q).2 }
  /-- All the data is there. -/
  | complete (hcheck : writeCheck T c q = none) (hstored : (storedImmediate T c q).1 = .ok)
    (hcomplete : Complete T q) :
    WriteOutcome c q (({ c with
      scsi := syncedIf T (q.fua && decide (q.data ≠ [])) (storedImmediate T c q).2 } :
      Conn β).emit T (statusPdu T q [] none))
  /-- Data is missing, but the PDU announces another amount than the command. -/
  | mismatch (hcheck : writeCheck T c q = none) (hstored : (storedImmediate T c q).1 = .ok)
    (hcomplete : ¬ Complete T q) (hlen : nBytesOf T q ≠ q.bhs.getExpDatLen.toNat) :
    WriteOutcome c q (({ c with scsi := (storedImmediate T c q).2 } : Conn β).emit T
      (statusPdu T q [] (residualOf (nBytesOf T q) q.bhs.getExpDatLen.toNat)))
  /-- Data is missing and is asked for. -/
  | transfer (hcheck : writeCheck T c q = none) (hstored : (storedImmediate T c q).1 = .ok)
    (hcomplete : ¬ Complete T q) (hlen : nBytesOf T q = q.bhs.getExpDatLen.toNat) :
    WriteOutcome c q (openTransfer T { c with scsi := (storedImmediate T c q).2 } q)

variable {T}

/-! ### The R2T session -/

@[simp] theorem Conn.answer_ses (c : Conn β) (p : Option PduOut) : (c.answer T p).ses = c.ses := by
  cases p <;> rfl

@[simp] theorem Conn.answer_disk (c : Conn β) (p : Option PduOut) :
    (c.answer T p).scsi.disk = c.scsi.disk := by
  cases p <;> rfl

@[simp] theorem openR2t_disk (rs : R2tSession) (c : Conn β) (q : Pdu) :
    (openR2t T rs c q).scsi.disk = c.scsi.disk := by
  simp [openR2t]

@[simp] theorem r2tOf_fua (q : Pdu) : (r2tOf T q).fua = q.fua := by
  simp only [r2tOf, Scsi.r2tFor]

/-- The session table once the R2T session is registered. -/
theorem openTransfer_ses (c : Conn β) (q : Pdu) :
    (openTransfer T { c with scsi := (storedImmediate T c q).2 } q).ses =
      c.ses.initR2tSession (r2tOf T q) q.fua q.bhs (commandTag T c q) := by
  rw [openTransfer, openR2t, Conn.answer_ses, r2tOf_fua]
  rfl

@[simp] theorem openTransfer_disk (c : Conn β) (q : Pdu) :
    (openTransfer T c q).scsi.disk = c.scsi.disk := openR2t_disk _ c q

/-- Under a fresh tag the R2T session is the one of the command. -/
theorem getR2tSesion_openTransfer {c : Conn β} {q : Pdu}
    (h : c.ses.getR2tSesion (commandTag T c q) = none) :
    (openTransfer T { c with scsi := (storedImmediate T c q).2 } q).ses.getR2tSesion
      (commandTag T c q) = some (taskOf T q) := by
  rw [openTransfer_ses]
  exact Session.getR2tSesion_initR2tSession_of_none _ h

-- the fields are unfolded by name: a bare `rfl` would evaluate the CDB

@[simp] theorem taskOf_bufferLba (q : Pdu) : (taskOf T q).bufferLba = q.lba := by
  simp only [taskOf, r2tOf, Scsi.r2tFor]

@[simp] theorem taskOf_fua (q : Pdu) : (taskOf T q).fua = q.fua := by
  simp only [taskOf]

@[simp] theorem taskOf_isWriteSame (q : Pdu) : (taskOf T q).isWriteSame = false := by
  simp only [taskOf, r2tOf, Scsi.r2tFor]

/-- What is missing, in bytes, when the number fits 32 bits. The whole blocks
that came with the command have been taken off. -/
theorem toNat_bytesLeft {q : Pdu} (h : nBytesOf T q < 2 ^ 32) :
    (taskOf T q).bytesLeft.toNat = nBytesOf T q - immediateBlocks T q * T.blockSize := by
  change (if immediateBlocks T q ≤ q.nBlocks.toNat then
    UInt32.ofNat ((q.nBlocks.toNat - immediateBlocks T q) * T.blockSize) else 0).toNat = _
  unfold nBytesOf Target.nBytes at *
  rw [← Nat.sub_mul]
  split
  · refine toNat_ofNat_32 (lt_of_le_of_lt ?_ h)
    exact Nat.mul_le_mul_right _ (Nat.sub_le _ _)
  · -- more blocks than asked for: nothing is missing
    next hle =>
    rw [Nat.sub_eq_zero_of_le (by omega), Nat.zero_mul]
    rfl

/-! ### The trace -/

theorem does_syncedIf (fua : Bool) (s : Scsi β) :
    ∃ evs, s.Does (syncedIf T fua s) evs ∧ ∀ e ∈ evs, ∃ ok, e = .io .sync ok := by
  cases fua with
  | false => exact ⟨[], .refl s, by simp⟩
  | true => exact s.does_sync

theorem extends_storedImmediate (c : Conn β) (q : Pdu) :
    c.Extends { c with scsi := (storedImmediate T c q).2 } := by
  obtain ⟨evs, h⟩ :=
    Scsi.transfers_storeImmediate (T := T) (c.receive q).scsi q.lba q.nBlocks q.data
  exact (Conn.Extends.receive c q).trans ⟨evs, h.does⟩

/-- Opening a transfer adds the R2T to the trace, or nothing if no tag could be
chosen. -/
theorem does_openR2t (rs : R2tSession) (c : Conn β) (q : Pdu) :
    c.scsi.Does (openR2t T rs c q).scsi
      (if (chooseTtt T c.scsi.history q.bhs.getItasktag).2 then
        [.sent (.r2t (.set T q.bhs (chooseTtt T c.scsi.history q.bhs.getItasktag).1
          rs.bytesDone rs.bytesLeft)) (T.send c.scsi.history)]
      else []) := by
  by_cases h : (chooseTtt T c.scsi.history q.bhs.getItasktag).2 = true
  · simp only [openR2t, if_pos h, Conn.answer]
    exact Scsi.does_note _
  · simp only [openR2t, if_neg h, Conn.answer]
    exact .refl c.scsi

theorem does_openTransfer (c : Conn β) (q : Pdu) :
    c.scsi.Does (openTransfer T c q).scsi
      (if (chooseTtt T c.scsi.history q.bhs.getItasktag).2 then
        [.sent (.r2t (.set T q.bhs (chooseTtt T c.scsi.history q.bhs.getItasktag).1
          (r2tOf T q).bytesDone (r2tOf T q).bytesLeft)) (T.send c.scsi.history)]
      else []) := does_openR2t _ c q

theorem extends_transfer (c : Conn β) (q : Pdu) :
    c.Extends (openTransfer T { c with scsi := (storedImmediate T c q).2 } q) :=
  (extends_storedImmediate c q).trans ⟨_, does_openTransfer _ q⟩

/-- **A WRITE command makes the trace longer** and leaves the reservation,
whatever it ends in. -/
theorem WriteOutcome.extends {c c' : Conn β} {q : Pdu} (h : WriteOutcome T c q c') :
    c.Extends c' := by
  have h_stored := extends_storedImmediate (T := T) c q
  -- the PDU, what is stored of it, and what is sent
  cases h with
  | refused hcheck => exact (Conn.Extends.receive c q).trans (.emit _ _)
  | conflict hcheck hstored => exact h_stored.trans (.emit _ _)
  | failed hcheck hstored => exact h_stored
  | complete hcheck hstored hcomplete =>
    obtain ⟨evs, h_sync, -⟩ := does_syncedIf (T := T) (q.fua && decide (q.data ≠ []))
      (storedImmediate T c q).2
    exact (h_stored.move ⟨evs, h_sync⟩ c.ses).trans (.emit _ _)
  | mismatch hcheck hstored hcomplete hlen => exact h_stored.trans (.emit _ _)
  | transfer hcheck hstored hcomplete hlen => exact extends_transfer c q

/-! ### The outcomes -/

theorem send_of_isWrite (fuel : ℕ) (s : Scsi β) (lun : UInt64) {cdb : Cdb} (data : Bytes)
    (h : cdb.opcode.isWrite = true) :
    s.send T fuel lun cdb data = .ok (s.writeVerify T cdb data) := by
  unfold Scsi.send
  cases hop : cdb.opcode <;> simp_all [ScsiOpcode.isWrite]

/-- The number of bytes a command can ask for fits a `uint64_t`. -/
theorem nBytesOf_lt (q : Pdu) : nBytesOf T q < 2 ^ 64 := by
  have h_n := q.nBlocks.toNat_lt
  have h_bs := T.backend.getBlockSize_lt
  unfold nBytesOf Target.nBytes
  calc q.nBlocks.toNat * T.blockSize
      ≤ q.nBlocks.toNat * 2 ^ 32 := Nat.mul_le_mul_left _ h_bs.le
    _ < 2 ^ 32 * 2 ^ 32 := Nat.mul_lt_mul_of_pos_right h_n (by omega)

/-- `write_verify` past the check, with and without data alike: what it returns
is decided by what storing the immediate data comes to. -/
theorem writeVerify_of_check {c : Conn β} {q : Pdu} (hcheck : writeCheck T c q = none) :
    (c.receive q).scsi.writeVerify T q.bhs.getCdb q.data =
      let response : ScsiResponse :=
        { amountOfDataExpected := some (UInt64.ofNat (nBytesOf T q)) }
      match storedImmediate T c q with
      | (.ok, s') =>
        if Complete T q then
          ({ response with type := .emptySense }, syncedIf T (q.fua && decide (q.data ≠ [])) s')
        else ({ response with type := .r2t, r2t := r2tOf T q }, s')
      | (.failRw, s') => ({ response with senseData := errorWriteError }, s')
      | (.failLocked, s') => ({ response with senseData := errorReservationConflict1 }, s')
      | (_, s') => (response, s') := by
  have hcheck' : (c.receive q).scsi.validateRequest T q.bhs.getCdb.range.1 q.bhs.getCdb.range.2
    (some q.bhs.getCdb) = none := hcheck
  unfold Scsi.writeVerify
  simp only [hcheck']
  by_cases hd : q.data = []
  · -- no immediate data: nothing is stored, and all of it is asked for
    simp only [storedImmediate, hd, Scsi.storeImmediate_nil, Complete, r2tOf, immediateBlocks,
      syncedIf, ne_eq, not_true_eq_false, if_false, decide_false, Bool.and_false, if_true]
    by_cases hn : q.bhs.getCdb.range.2 = 0
    · simp [nBytesOf, Pdu.nBlocks, hn]
    · simp [nBytesOf, Pdu.lba, Pdu.nBlocks, Pdu.fua, hn]
  · -- with immediate data the two have the same branches
    simp only [storedImmediate, hd, Complete, r2tOf, immediateBlocks, syncedIf, ne_eq,
      not_false_eq_true, if_true, if_false, decide_true, Bool.and_true]
    rfl

/-- An answer that is a SCSI Response and nothing else: no data in a buffer, and
no place to stream from. -/
theorem serve_of_status {fuel : ℕ} {c : Conn β} {q : Pdu} (hop : q.bhs.getOpcode = .scsiCmd)
    {reply : ScsiResponse} {s' : Scsi β}
    (hsend : (c.receive q).scsi.send T fuel q.bhs.getLunNr q.bhs.getCdb q.data = .ok (reply, s'))
    (hinline : reply.inlineData = none) (hloc : reply.location.nSectors = 0)
    (htype : reply.type = .emptySense ∨ reply.type = .asIs ∧ reply.senseData ≠ []) :
    serve T fuel c q =
      .ok (({ c with scsi := s' } : Conn β).emit T (statusPdu T q reply.senseData none)) := by
  have hstatus : statusReply T { c with scsi := s' } q.bhs reply =
      .ok (some (.scsiResponse (.set T q.bhs reply.senseData none
        (if reply.senseData = errorReservationConflict1 then some 0x18 else none))),
        { c with scsi := s' }, true) := by
    -- either type leads to the response, since there is sense data
    unfold statusReply
    rcases htype with h | ⟨h, hs⟩
    · simp [h]
    · simp [h, hs]
  exact serve_of_reply hop hsend hinline hloc hstatus rfl (by simp [Reply.single])

/-- Whatever is wrong with a range, there is sense data for it. -/
theorem sense_ne_nil {c : Conn β} {q : Pdu} {sense : Bytes}
    (h : writeCheck T c q = some sense) : sense ≠ [] := by
  rcases Scsi.validateRequest_sense T c.scsi h with rfl | rfl <;>
    simp [errorOutOfRange, errorInvalidField, fixedSense]

/-- The amount of data of the command, as the 64-bit number it is kept in. -/
theorem nBytesOf_eq_iff (q : Pdu) :
    UInt64.ofNat (nBytesOf T q) ≠ q.bhs.getExpDatLen.toUInt64 ↔
      nBytesOf T q ≠ q.bhs.getExpDatLen.toNat := by
  have h_lt := nBytesOf_lt (T := T) q
  rw [ne_eq, ← UInt64.toNat_inj, UInt64.toNat_ofNat', Nat.mod_eq_of_lt h_lt,
    UInt32.toNat_toUInt64]

/-- An R2T is called for, but the PDU announces another amount than the command.
It is answered with a residual, and no data is asked for. -/
theorem serve_mismatch {fuel : ℕ} {c : Conn β} {q : Pdu} (hop : q.bhs.getOpcode = .scsiCmd)
    {rs : R2tSession} {s' : Scsi β}
    (hsend : (c.receive q).scsi.send T fuel q.bhs.getLunNr q.bhs.getCdb q.data =
      .ok ({ type := .r2t, amountOfDataExpected := some (UInt64.ofNat (nBytesOf T q)),
             r2t := rs }, s'))
    (hlen : nBytesOf T q ≠ q.bhs.getExpDatLen.toNat) :
    serve T fuel c q = .ok (({ c with scsi := s' } : Conn β).emit T
      (statusPdu T q [] (residualOf (nBytesOf T q) q.bhs.getExpDatLen.toNat))) := by
  have h_toNat : (UInt64.ofNat (nBytesOf T q)).toNat = nBytesOf T q := by
    rw [UInt64.toNat_ofNat', Nat.mod_eq_of_lt (nBytesOf_lt q)]
  have hstatus : statusReply T { c with scsi := s' } q.bhs
      { type := .r2t, amountOfDataExpected := some (UInt64.ofNat (nBytesOf T q)), r2t := rs } =
      .ok (some (.scsiResponse (.set T q.bhs []
        (residualOf (nBytesOf T q) q.bhs.getExpDatLen.toNat) none)), { c with scsi := s' },
        true) := by
    simp only [statusReply]
    -- the amounts are compared in 64 bits, and neither is cut down
    rw [if_pos ((nBytesOf_eq_iff q).mpr hlen), h_toNat, UInt32.toNat_toUInt64]
  exact serve_of_reply hop hsend rfl rfl hstatus rfl (by simp [Reply.single])

/-- An R2T is called for, and the two amounts agree. The session is put into the
table, and the R2T is sent. -/
theorem serve_openR2t {fuel : ℕ} {c : Conn β} {q : Pdu} (hop : q.bhs.getOpcode = .scsiCmd)
    {rs : R2tSession} {s' : Scsi β}
    (hsend : (c.receive q).scsi.send T fuel q.bhs.getLunNr q.bhs.getCdb q.data =
      .ok ({ type := .r2t, amountOfDataExpected := some (UInt64.ofNat (nBytesOf T q)),
             r2t := rs }, s'))
    (hlen : nBytesOf T q = q.bhs.getExpDatLen.toNat) :
    serve T fuel c q = .ok (openR2t T rs { c with scsi := s' } q) := by
  have hstatus : statusReply T { c with scsi := s' } q.bhs
      { type := .r2t, amountOfDataExpected := some (UInt64.ofNat (nBytesOf T q)), r2t := rs } =
      .ok (some (.r2t (.set T q.bhs (chooseTtt T s'.history q.bhs.getItasktag).1
          rs.bytesDone rs.bytesLeft)),
        { scsi := s'
          ses := c.ses.initR2tSession rs rs.fua q.bhs
            (chooseTtt T s'.history q.bhs.getItasktag).1 },
        (chooseTtt T s'.history q.bhs.getItasktag).2) := by
    simp only [statusReply]
    rw [if_neg (by rw [nBytesOf_eq_iff]; simpa using hlen)]
  exact serve_of_reply hop hsend rfl rfl hstatus rfl (by simp [Reply.single])

/-- The same for a WRITE. -/
theorem serve_transfer {fuel : ℕ} {c : Conn β} {q : Pdu} (hop : q.bhs.getOpcode = .scsiCmd)
    {s' : Scsi β}
    (hsend : (c.receive q).scsi.send T fuel q.bhs.getLunNr q.bhs.getCdb q.data =
      .ok ({ type := .r2t, amountOfDataExpected := some (UInt64.ofNat (nBytesOf T q)),
             r2t := r2tOf T q }, s'))
    (hlen : nBytesOf T q = q.bhs.getExpDatLen.toNat) :
    serve T fuel c q = .ok (openTransfer T { c with scsi := s' } q) :=
  serve_openR2t hop hsend hlen

/-- **A WRITE command ends in one of the six ways**, and never in a fault. They
are gone through in the order of the code. -/
theorem serve_write (fuel : ℕ) (c : Conn β) {q : Pdu} (hq : q.IsWrite) :
    ∃ c', serve T fuel c q = .ok c' ∧ WriteOutcome T c q c' := by
  have hsend := send_of_isWrite (T := T) fuel (c.receive q).scsi q.bhs.getLunNr q.data hq.write
  -- the branches of `write_verify` in their order: the check, the immediate data, and what is
  -- missing
  cases hcheck : writeCheck T c q with
  | some sense =>
    have hverify : (c.receive q).scsi.writeVerify T q.bhs.getCdb q.data =
        ({ amountOfDataExpected := some (UInt64.ofNat (nBytesOf T q)), senseData := sense },
          (c.receive q).scsi) := by
      have hcheck' : (c.receive q).scsi.validateRequest T q.bhs.getCdb.range.1
        q.bhs.getCdb.range.2 (some q.bhs.getCdb) = some sense := hcheck
      unfold Scsi.writeVerify
      simp only [hcheck']
      rfl
    rw [hverify] at hsend
    exact ⟨_, serve_of_status hq.opcode hsend rfl rfl (.inr ⟨rfl, sense_ne_nil hcheck⟩),
      .refused hcheck⟩
  | none =>
    rw [writeVerify_of_check hcheck] at hsend
    obtain ⟨evs, hevs⟩ :=
      Scsi.transfers_storeImmediate (T := T) (c.receive q).scsi q.lba q.nBlocks q.data
    rcases hst : storedImmediate T c q with ⟨rc, s'⟩
    have h_rc : (storedImmediate T c q).1 = rc := by rw [hst]
    have h_s : (storedImmediate T c q).2 = s' := by rw [hst]
    rw [hst] at hsend
    rcases hevs.result with h | h | h
    · -- stored
      obtain rfl : rc = .ok := h_rc.symm.trans h
      by_cases hcomplete : Complete T q
      · simp only [if_pos hcomplete] at hsend
        exact ⟨_, serve_of_status hq.opcode hsend rfl rfl (.inl rfl),
          h_s ▸ .complete hcheck h_rc hcomplete⟩
      · simp only [if_neg hcomplete] at hsend
        by_cases hlen : nBytesOf T q = q.bhs.getExpDatLen.toNat
        · exact ⟨_, serve_transfer hq.opcode hsend hlen,
            h_s ▸ .transfer hcheck h_rc hcomplete hlen⟩
        · exact ⟨_, serve_mismatch hq.opcode hsend hlen,
            h_s ▸ .mismatch hcheck h_rc hcomplete hlen⟩
    · -- stopped by a reservation
      obtain rfl : rc = .failLocked := h_rc.symm.trans h
      exact ⟨_, serve_of_status hq.opcode hsend rfl rfl
        (.inr ⟨rfl, by simp [errorReservationConflict1, fixedSense]⟩),
        h_s ▸ .conflict hcheck h_rc⟩
    · -- the backend failed
      obtain rfl : rc = .failGeneral := h_rc.symm.trans h
      -- the failure is logged, and no answer is made
      have hstatus : statusReply T { c with scsi := s' } q.bhs
          { amountOfDataExpected := some (UInt64.ofNat (nBytesOf T q)) } =
          .ok (none, { c with scsi := s' }, true) := rfl
      exact ⟨_, serve_of_reply hq.opcode hsend rfl rfl hstatus rfl (by simp),
        h_s ▸ .failed hcheck h_rc⟩

/-- A WRITE command that leaves an R2T session under a fresh tag has passed the
check, and the R2T session is its own. -/
theorem opened_of_serve {fuel : ℕ} {c c' : Conn β} {q : Pdu} (hq : q.IsWrite)
    (hfresh : c.ses.getR2tSesion (commandTag T c q) = none) (hserve : serve T fuel c q = .ok c')
    (hopen : c'.ses.getR2tSesion (commandTag T c q) ≠ none) :
    writeCheck T c q = none ∧
      c'.ses.getR2tSesion (commandTag T c q) = some (taskOf T q) := by
  obtain ⟨c'', h_serve, h_out⟩ := serve_write (T := T) fuel c hq
  obtain rfl := Except.ok.inj (h_serve.symm.trans hserve)
  -- of all ways to answer only the transfer opens a session
  cases h_out with
  | refused hcheck => exact absurd hfresh hopen
  | conflict hcheck hstored => exact absurd hfresh hopen
  | failed hcheck hstored => exact absurd hfresh hopen
  | complete hcheck hstored hcomplete => exact absurd hfresh hopen
  | mismatch hcheck hstored hcomplete hlen => exact absurd hfresh hopen
  | transfer hcheck hstored hcomplete hlen => exact ⟨hcheck, getR2tSesion_openTransfer hfresh⟩

/-- The data of a command that has opened an R2T session can be counted in 32
bits: it is what the PDU announces. -/
theorem nBytesOf_lt_of_opened {fuel : ℕ} {c c' : Conn β} {q : Pdu} (hq : q.IsWrite)
    (hfresh : c.ses.getR2tSesion (commandTag T c q) = none) (hserve : serve T fuel c q = .ok c')
    (hopen : c'.ses.getR2tSesion (commandTag T c q) ≠ none) : nBytesOf T q < 2 ^ 32 := by
  obtain ⟨c'', h_serve, h_out⟩ := serve_write (T := T) fuel c hq
  obtain rfl := Except.ok.inj (h_serve.symm.trans hserve)
  -- only a transfer opens a session, and the amounts agree there
  cases h_out with
  | refused hcheck => exact absurd hfresh hopen
  | conflict hcheck hstored => exact absurd hfresh hopen
  | failed hcheck hstored => exact absurd hfresh hopen
  | complete hcheck hstored hcomplete => exact absurd hfresh hopen
  | mismatch hcheck hstored hcomplete hlen => exact absurd hfresh hopen
  | transfer hcheck hstored hcomplete hlen =>
    rw [hlen]
    exact q.bhs.getExpDatLen.toNat_lt

end IscsiTarget
