import IscsiTarget.Write.Command

/-!
# A WRITE SAME command

`SameOutcome` lists the ways in which the handling of a WRITE SAME can end, and
`serve_writeSame` says that one of them is taken. With one block of data a loop writes it (or
trims) block after block, over as many blocks as the command asks for or up to the end of the
device. Without data nothing is done: the code asks for data when the *number of blocks*
happens to be the size of a block, and says GOOD otherwise.
-/

namespace IscsiTarget

namespace Pdu

variable (q : Pdu)

/-- The PDU is a WRITE SAME command. -/
structure IsWriteSame : Prop where
  opcode : q.bhs.getOpcode = .scsiCmd
  same : q.bhs.getCdb.opcode.isWriteSame = true

/-- The UNMAP bit. -/
def unmaps : Bool := getElem q.bhs.getCdb 1 Cdb.lt1 &&& 8 != 0

end Pdu

variable {β : Type} (T : Target β)

/-- The R2T session of a WRITE SAME without data. -/
def sameTask (q : Pdu) : R2tSession := { writeSameIsUnmap := q.unmaps, isWriteSame := true }

/-- The loop of a WRITE SAME with data. -/
def sameLoop (fuel : ℕ) (c : Conn β) (q : Pdu) : Except Fault (RwResult × Scsi β) :=
  if q.nBlocks = 0 then Scsi.writeSameToEnd T q.unmaps q.data fuel q.lba (c.receive q).scsi
  else .ok (Scsi.writeSameBlocks T q.unmaps q.data q.nBlocks.toNat q.lba (c.receive q).scsi)

/-- The sense data for the result of the loop: a failed backend call gives none. -/
def sameSense : RwResult → Bytes
  | .failRw => errorWriteError
  | .failLocked => errorReservationConflict1
  | _ => []

/-- Up to the end of the device there are more blocks than one command may
write. -/
def SameTooLong (c : Conn β) (q : Pdu) : Prop :=
  q.nBlocks = 0 ∧ c.scsi.getSizeInBlocks T - q.lba > T.build.maxWsLen.toUInt64

/-- The ways the handling of a WRITE SAME ends, one for each branch of
`write_same`, with the connection it leaves behind. The backend takes part in
one of them only. -/
inductive SameOutcome (fuel : ℕ) (c : Conn β) (q : Pdu) : Conn β → Prop
  /-- The command is refused. -/
  | refused {sense : Bytes} (hcheck : writeCheck T c q = some sense) :
    SameOutcome fuel c q ((c.receive q).emit T (statusPdu T q sense none))
  /-- The data is not one block: nothing is sent. -/
  | miscounted (hcheck : writeCheck T c q = none) (hd : q.data ≠ [])
    (hcount : q.data.length / T.blockSize ≠ 1) : SameOutcome fuel c q (c.receive q)
  | tooLong (hcheck : writeCheck T c q = none) (hd : q.data ≠ [])
    (hcount : q.data.length / T.blockSize = 1) (hlong : SameTooLong T c q) :
    SameOutcome fuel c q ((c.receive q).emit T (statusPdu T q errorInvalidField none))
  /-- The loop has been through. -/
  | looped {r : RwResult × Scsi β} (hcheck : writeCheck T c q = none) (hd : q.data ≠ [])
    (hcount : q.data.length / T.blockSize = 1) (hlong : ¬ SameTooLong T c q)
    (hloop : sameLoop T fuel c q = .ok r) :
    SameOutcome fuel c q
      (({ c with scsi := r.2 } : Conn β).emit T (statusPdu T q (sameSense r.1) none))
  /-- There is no data, and it is asked for. -/
  | asked (hcheck : writeCheck T c q = none) (hd : q.data = [])
    (hn : q.nBlocks.toNat = T.blockSize) (hlen : nBytesOf T q = q.bhs.getExpDatLen.toNat) :
    SameOutcome fuel c q (openR2t T (sameTask q) (c.receive q) q)
  /-- There is no data, and the PDU announces another amount than the command. -/
  | mismatch (hcheck : writeCheck T c q = none) (hd : q.data = [])
    (hn : q.nBlocks.toNat = T.blockSize) (hlen : nBytesOf T q ≠ q.bhs.getExpDatLen.toNat) :
    SameOutcome fuel c q ((c.receive q).emit T
      (statusPdu T q [] (residualOf (nBytesOf T q) q.bhs.getExpDatLen.toNat)))
  /-- There is no data, and that is taken for GOOD. -/
  | nothing (hcheck : writeCheck T c q = none) (hd : q.data = [])
    (hn : q.nBlocks.toNat ≠ T.blockSize) :
    SameOutcome fuel c q ((c.receive q).emit T (statusPdu T q [] none))

variable {T} {fuel : ℕ} {c : Conn β} {q : Pdu}

theorem send_of_isWriteSame (hq : q.IsWriteSame) (s : Scsi β) (lun : UInt64) :
    s.send T fuel lun q.bhs.getCdb q.data = s.writeSame T fuel q.bhs.getCdb q.data := by
  have h_same := hq.same
  unfold Scsi.send
  cases hop : q.bhs.getCdb.opcode <;> simp_all [ScsiOpcode.isWriteSame]

/-- The answer to a loop that has been through. Its sense data is decided by the
result of the loop, and everything else is as it was. -/
theorem writeSameDone_spec (response : ScsiResponse) (h_type : response.type = .asIs)
    (h_sense : response.senseData = []) (r : RwResult × Scsi β) :
    (Scsi.writeSameDone response r).2 = r.2 ∧
      (Scsi.writeSameDone response r).1.senseData = sameSense r.1 ∧
      (Scsi.writeSameDone response r).1.inlineData = response.inlineData ∧
      (Scsi.writeSameDone response r).1.location = response.location ∧
      ((Scsi.writeSameDone response r).1.type = .emptySense ∨
        (Scsi.writeSameDone response r).1.type = .asIs ∧
          (Scsi.writeSameDone response r).1.senseData ≠ []) := by
  obtain ⟨rc, s'⟩ := r
  cases rc with
  | ok => exact ⟨rfl, h_sense, rfl, rfl, .inl rfl⟩
  | failRw => exact ⟨rfl, rfl, rfl, rfl, .inr ⟨h_type, by simp [Scsi.writeSameDone, errorWriteError,
      fixedSense]⟩⟩
  | failLocked => exact ⟨rfl, rfl, rfl, rfl, .inr ⟨h_type, by simp [Scsi.writeSameDone,
      errorReservationConflict1, fixedSense]⟩⟩
  | failGeneral => exact ⟨rfl, h_sense, rfl, rfl, .inl rfl⟩
  | failMismatch => exact ⟨rfl, h_sense, rfl, rfl, .inl rfl⟩

/-- **A WRITE SAME ends in one of the seven ways**, when its loop ends. The
hypothesis is about the one way in which there is a loop. -/
theorem serve_writeSame (hq : q.IsWriteSame)
    (h_loop : writeCheck T c q = none → q.data.length / T.blockSize = 1 → ¬ SameTooLong T c q →
      ∃ r, sameLoop T fuel c q = .ok r) :
    ∃ c', serve T fuel c q = .ok c' ∧ SameOutcome T fuel c q c' := by
  have hsend := @send_of_isWriteSame _ T fuel q hq (c.receive q).scsi q.bhs.getLunNr
  unfold Scsi.writeSame at hsend
  -- the branches of `write_same` in their order: the check, a command without data, the length of
  -- the data, the limit, and the loop
  cases hcheck : writeCheck T c q with
  | some sense =>
    have hcheck' : (c.receive q).scsi.validateRequest T q.bhs.getCdb.range.1
      q.bhs.getCdb.range.2 (some q.bhs.getCdb) = some sense := hcheck
    simp only [hcheck'] at hsend
    exact ⟨_, serve_of_status hq.opcode hsend rfl rfl (.inr ⟨rfl, sense_ne_nil hcheck⟩),
      .refused hcheck⟩
  | none =>
    have hcheck' : (c.receive q).scsi.validateRequest T q.bhs.getCdb.range.1
      q.bhs.getCdb.range.2 (some q.bhs.getCdb) = none := hcheck
    simp only [hcheck'] at hsend
    by_cases hd : q.data = []
    · rw [if_neg (not_not.mpr hd)] at hsend
      -- without data the source compares the number of blocks with the size of a block
      by_cases hn : q.nBlocks.toNat = T.blockSize
      · have hn' : q.bhs.getCdb.range.2.toNat = T.blockSize := hn
        rw [if_pos hn'] at hsend
        by_cases hlen : nBytesOf T q = q.bhs.getExpDatLen.toNat
        · exact ⟨_, serve_openR2t hq.opcode hsend hlen, .asked hcheck hd hn hlen⟩
        · exact ⟨_, serve_mismatch hq.opcode hsend hlen, .mismatch hcheck hd hn hlen⟩
      · have hn' : ¬ q.bhs.getCdb.range.2.toNat = T.blockSize := hn
        rw [if_neg hn'] at hsend
        exact ⟨_, serve_of_status hq.opcode hsend rfl rfl (.inl rfl), .nothing hcheck hd hn⟩
    · rw [if_pos hd] at hsend
      by_cases hcount : q.data.length / T.blockSize = 1
      · rw [if_neg (not_not.mpr hcount)] at hsend
        by_cases hlong : SameTooLong T c q
        · have hzero : q.bhs.getCdb.range.2 = 0 := hlong.1
          have hlong' : (c.receive q).scsi.getSizeInBlocks T - q.bhs.getCdb.range.1 >
            T.build.maxWsLen.toUInt64 := hlong.2
          rw [if_pos hzero, if_pos hlong'] at hsend
          exact ⟨_, serve_of_status hq.opcode hsend rfl rfl
            (.inr ⟨rfl, by simp [errorInvalidField, fixedSense]⟩), .tooLong hcheck hd hcount hlong⟩
        · -- the loop, of one kind or the other
          obtain ⟨r, h_r⟩ := h_loop hcheck hcount hlong
          obtain ⟨response, h_response, h_send⟩ : ∃ response : ScsiResponse,
              (response.type = .asIs ∧ response.senseData = [] ∧ response.inlineData = none ∧
                response.location.nSectors = 0) ∧
              (c.receive q).scsi.send T fuel q.bhs.getLunNr q.bhs.getCdb q.data =
                .ok (Scsi.writeSameDone response r) := by
            refine ⟨{ amountOfDataExpected := some (UInt64.ofNat (nBytesOf T q))
                      r2t := sameTask q }, ⟨rfl, rfl, rfl, rfl⟩, hsend.trans ?_⟩
            unfold sameLoop at h_r
            by_cases hzero : q.nBlocks = 0
            · have hzero' : q.bhs.getCdb.range.2 = 0 := hzero
              have hlong' : ¬ (c.receive q).scsi.getSizeInBlocks T - q.bhs.getCdb.range.1 >
                T.build.maxWsLen.toUInt64 := fun h => hlong ⟨hzero, h⟩
              rw [if_pos hzero] at h_r
              rw [if_pos hzero', if_neg hlong']
              exact congrArg (Except.map _) h_r
            · have hzero' : ¬ q.bhs.getCdb.range.2 = 0 := hzero
              rw [if_neg hzero] at h_r
              rw [if_neg hzero']
              exact congrArg (Except.map _) h_r
          obtain ⟨h_type, h_sense, h_inline, h_loc⟩ := h_response
          obtain ⟨h_state, h_sense', h_inline', h_loc', h_type'⟩ :=
            writeSameDone_spec response h_type h_sense r
          generalize Scsi.writeSameDone response r = answer
            at h_send h_state h_sense' h_inline' h_loc' h_type'
          obtain ⟨reply, s'⟩ := answer
          have h_serve := serve_of_status hq.opcode h_send (h_inline'.trans h_inline)
            ((congrArg DataDescriptor.nSectors h_loc').trans h_loc) h_type'
          obtain rfl : s' = r.2 := h_state
          rw [h_sense'] at h_serve
          exact ⟨_, h_serve, .looped hcheck hd hcount hlong h_r⟩
      · rw [if_pos hcount] at hsend
        -- the wrong length is logged and nothing is answered
        have hstatus : ∀ r : ScsiResponse, r.type = .asIs → r.senseData = [] →
            statusReply T (c.receive q) q.bhs r = .ok (none, c.receive q, true) := by
          intro r h_type h_sense
          simp [statusReply, h_type, h_sense]
        exact ⟨_, serve_of_reply hq.opcode hsend rfl rfl (hstatus _ rfl rfl) rfl (by simp),
          .miscounted hcheck hd hcount⟩

end IscsiTarget
