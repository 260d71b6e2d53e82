import IscsiTarget.Answers.Echo
import IscsiTarget.Write.DataOut

/-!
# Commands that leave everything at rest

`Conn.Rests` says that neither the medium nor the table of R2T sessions nor the reservation
has been touched; what may have moved is the trace, the DataSN counter and the state of the
backend behind the medium. Sending and reading do no more than that, and of the PDUs all
those of `Pdu.Quiet`: everything but the Data-Outs, the task-management requests, and the
SCSI Commands that store something or take the reservation. `Conn.Rests.serve` takes such a PDU
through `push_response` and the handler.
-/

namespace IscsiTarget

variable {β : Type} {T : Target β} {medium : β → Medium UInt8}

/-- Nothing is stored, nothing is waited for, and nothing is reserved. What else
there is of the state, such as the sequence numbers, may have gone on. -/
structure Conn.Rests (T : Target β) (medium : β → Medium UInt8) (c c' : Conn β) : Prop where
  grows : c.Extends c'
  medium_eq : medium c'.scsi.disk = medium c.scsi.disk
  size_eq : c'.scsi.size T = c.scsi.size T
  table_eq : c'.ses.r2tSessions = c.ses.r2tSessions

namespace Conn.Rests

variable {c c₁ c₂ : Conn β}

theorem refl (c : Conn β) : c.Rests T medium c := ⟨.refl c, rfl, rfl, rfl⟩

theorem trans (h₁ : c.Rests T medium c₁) (h₂ : c₁.Rests T medium c₂) : c.Rests T medium c₂ where
  grows := h₁.grows.trans h₂.grows
  medium_eq := h₂.medium_eq.trans h₁.medium_eq
  size_eq := h₂.size_eq.trans h₁.size_eq
  table_eq := h₂.table_eq.trans h₁.table_eq

/-- The session only has its counter moved on. -/
theorem table (c : Conn β) {ses : Session} (h : ses.r2tSessions = c.ses.r2tSessions) :
    c.Rests T medium { c with ses := ses } := ⟨.refl c, rfl, rfl, h⟩

theorem note (c : Conn β) (e : Event) : c.Rests T medium { c with scsi := c.scsi.note e } :=
  ⟨⟨_, Scsi.does_note e⟩, rfl, rfl, rfl⟩

theorem sendPdu (c : Conn β) (p : PduOut) :
    c.Rests T medium { c with scsi := (sendPdu T c.scsi p).2 } := note c _

theorem read (hB : T.backend.Stores medium) (c : Conn β) (lba : UInt64) (n : UInt32) :
    c.Rests T medium { c with scsi := (c.scsi.read T lba n).2 } := by
  have h_size := congrArg UInt64.toNat (hB.read_size c.scsi.disk lba n)
  by_cases hl : c.scsi.lockingStatus T = .lockedOther
  · rw [Scsi.read_of_locked hl]
    exact refl c
  · have h_medium := hB.read_medium c.scsi.disk lba n
    rw [Scsi.read_of_unlocked hl]
    exact ⟨⟨_, rfl, rfl⟩, h_medium, h_size, rfl⟩

theorem sync (hB : T.backend.Stores medium) (c : Conn β) :
    c.Rests T medium { c with scsi := (c.scsi.sync T).2 } := by
  obtain ⟨evs, h_does, -⟩ := Scsi.does_sync (T := T) c.scsi
  obtain ⟨h_medium, h_size⟩ := Scsi.sync_medium (T := T) hB c.scsi
  exact ⟨⟨evs, h_does⟩, h_medium, h_size, rfl⟩

/-! ### Emitting the answer -/

theorem emitPdus (ps : List PduOut) (ifr : FailReason) (c : Conn β) :
    c.Rests T medium { c with scsi := (emitPdus T ps ifr c.scsi).2 } := by
  induction ps generalizing ifr c with
  | nil => exact refl c
  | cons p ps ih =>
    unfold IscsiTarget.emitPdus
    split
    · exact (sendPdu c p).trans (ih _ _)
    · exact ih ifr c

theorem emitReplies (rs : List Reply) (ifr : FailReason) (c : Conn β) :
    c.Rests T medium (emitReplies T rs ifr c).2 := by
  induction rs generalizing ifr c with
  | nil => exact refl c
  | cons r rs ih =>
    rw [IscsiTarget.emitReplies]
    refine trans ?_ (ih _ _)
    exact (emitPdus _ ifr c).trans (table _ (r.r2tSessions_get c.ses))

theorem streamRead (hB : T.backend.Stores medium) (c : Conn β) (lba : UInt64) (n : UInt32) :
    c.Rests T medium { c with scsi := (streamRead T c.scsi lba n).2 } := by
  unfold IscsiTarget.streamRead
  split
  · have h_read := read (T := T) hB c lba 1
    split <;> next h_eq => rw [h_eq] at h_read; exact h_read
  · have h_read := read (T := T) hB c lba (UInt32.ofNat (n.toNat / T.blockSize))
    split <;> next h_eq => rw [h_eq] at h_read; exact h_read

theorem streamLoop (hB : T.backend.Stores medium) {p : StreamParams} {fuel : ℕ}
    {ifr : FailReason} {offset : UInt32} {lba : UInt64} {c : Conn β} {r : FailReason × Conn β}
    (h : streamLoop T p fuel ifr offset lba c = .ok r) : c.Rests T medium r.2 := by
  -- on the turns: each one reads, sends and counts a DataSN
  induction fuel generalizing ifr offset lba c with
  | zero => cases h
  | succ fuel ih =>
    have h_read := streamRead (T := T) hB c lba (p.currentN c.ses offset)
    have h_table := r2tSessions_getIncDatasn c.ses p.replyTo.getItasktag
    rw [IscsiTarget.streamLoop] at h
    dsimp only at h
    split at h
    swap
    · obtain rfl := Except.ok.inj h
      exact refl c
    split at h
    · -- the read has failed
      next h_eq =>
      rw [h_eq] at h_read
      obtain rfl := Except.ok.inj h
      exact h_read.trans (table _ h_table)
    · next payload s' h_eq =>
      rw [h_eq] at h_read
      split at h
      · -- the send has failed
        next h_send =>
        obtain rfl := Except.ok.inj h
        obtain rfl := congrArg Prod.snd h_send
        exact (h_read.trans (sendPdu _ _)).trans (table _ h_table)
      · next h_send =>
        obtain rfl := congrArg Prod.snd h_send
        exact ((h_read.trans (sendPdu _ _)).trans (table _ h_table)).trans (ih h)

theorem streamData (hB : T.backend.Stores medium) {fuel : ℕ} {ifr : FailReason} {c : Conn β}
    {replyTo : Header} {d : DataDescriptor} {r : FailReason × Conn β}
    (h : streamData T fuel ifr c replyTo d = .ok r) : c.Rests T medium r.2 := by
  unfold IscsiTarget.streamData at h
  dsimp only at h
  split at h
  · obtain rfl := Except.ok.inj h
    exact sendPdu c _
  · exact streamLoop hB h

theorem finishResponse (hB : T.backend.Stores medium) {fuel : ℕ} {q : Pdu}
    {a : Option ResponseSet × Conn β} {r : FailReason × Conn β}
    (h : finishResponse T fuel q a = .ok r) : a.2.Rests T medium r.2 := by
  obtain ⟨responseSet, c⟩ := a
  cases responseSet with
  | none =>
    obtain rfl := Except.ok.inj h
    exact refl c
  | some responseSet =>
    unfold IscsiTarget.finishResponse emitResponseSet at h
    dsimp only at h
    split at h
    · obtain rfl := Except.ok.inj h
      exact emitReplies _ _ c
    · exact (emitReplies _ _ c).trans (streamData hB h)

theorem replyToFailure {c : Conn β} {pdu : Option Pdu} {ifr : FailReason}
    {r : FailureReply × Conn β} (h : replyToFailure T c pdu ifr = .ok r) :
    c.Rests T medium r.2 := by
  unfold IscsiTarget.replyToFailure at h
  split at h
  · split at h
    · cases h
    · obtain rfl := Except.ok.inj h
      exact refl c
    · obtain rfl := Except.ok.inj h
      exact sendPdu c _
  · obtain rfl := Except.ok.inj h
    exact refl c

end Conn.Rests

/-! ### Quiet PDUs -/

/-- The opcodes that neither store anything nor change the reservation. All of
them are listed, so that a new one has to be put on one of the two sides. -/
def ScsiOpcode.quiet : ScsiOpcode → Bool
  | .testUnitReady | .modeSense6 | .inquiry | .readCapacity10 | .getLbaStatus => true
  | .read6 | .read10 | .read12 | .read16 | .prefetch10 | .prefetch16 => true
  | .syncCache10 | .reportLuns | .repSupOper | .requestSense | .seek | .other => true
  | .write6 | .write10 | .write12 | .write16 | .writeVerify10 => false
  | .writeSame10 | .writeSame16 | .unmap | .compareAndWrite => false
  | .reserve6 | .release6 => false

theorem ScsiOpcode.not_write_of_quiet {op : ScsiOpcode} (h : op.quiet = true) :
    op.isWrite = false ∧ op.isWriteSame = false := by
  cases op <;> simp_all [quiet, isWrite, isWriteSame]

/-- The PDUs that leave everything at rest. -/
structure Pdu.Quiet (q : Pdu) : Prop where
  not_dataOut : q.bhs.getOpcode ≠ .scsiDataOut
  not_taskman : q.bhs.getOpcode ≠ .scsiTaskman
  command : q.bhs.getOpcode = .scsiCmd → q.bhs.getCdb.opcode.quiet = true

/-- The answers of these three kinds ask for no data. -/
theorem Scsi.Kind.not_r2t {s : Scsi β} {cdb : Cdb} {r : ScsiResponse} (h : s.Kind T cdb r) :
    r.type ≠ .r2t := by
  cases h with
  | status _ _ h => rcases h.type with h_type | ⟨h_type, -⟩ <;> simp [h_type]
  | data _ _ _ h => simp [h.type]
  | stream _ _ h _ => simp [h.type]

namespace Conn.Rests

variable {c : Conn β} {fuel : ℕ} {q : Pdu}

/-- Of the quiet commands only SYNCHRONIZE CACHE goes to the backend, and a sync
leaves the medium as it is. -/
theorem send (hB : T.backend.Stores medium) {lun : UInt64} {cdb : Cdb} {data : Bytes}
    (h_quiet : cdb.opcode.quiet = true) {x : ScsiResponse × Scsi β}
    (h : c.scsi.send T fuel lun cdb data = .ok x) :
    c.Rests T medium { c with scsi := x.2 } := by
  unfold Scsi.send at h
  cases hop : cdb.opcode <;> rw [hop] at h h_quiet <;> dsimp only at h
  case syncCache10 =>
    obtain rfl := Except.ok.inj h
    exact sync hB c
  -- the commands that write are not quiet
  case compareAndWrite => exact absurd h_quiet (by simp [ScsiOpcode.quiet])
  case unmap => exact absurd h_quiet (by simp [ScsiOpcode.quiet])
  case writeSame10 => exact absurd h_quiet (by simp [ScsiOpcode.quiet])
  case writeSame16 => exact absurd h_quiet (by simp [ScsiOpcode.quiet])
  all_goals obtain rfl := Except.ok.inj h
  all_goals first
    | exact refl c
    | exact absurd h_quiet (by simp [ScsiOpcode.quiet])

theorem statusReply {reply : ScsiResponse} (h_type : reply.type ≠ .r2t)
    {r : Option Reply × Conn β × Bool} (h : statusReply T c q.bhs reply = .ok r) : r.2.1 = c := by
  unfold IscsiTarget.statusReply at h
  split at h
  · split at h <;> (obtain rfl := Except.ok.inj h; rfl)
  · split at h <;> (obtain rfl := Except.ok.inj h; rfl)
  · next h_eq => exact absurd h_eq h_type

theorem scsiCmdGetResponse (hB : T.backend.Stores medium)
    (h_quiet : q.bhs.getCdb.opcode.quiet = true) {r : Option ResponseSet × Conn β}
    (h : scsiCmdGetResponse T fuel c q = .ok r) : c.Rests T medium r.2 := by
  unfold IscsiTarget.scsiCmdGetResponse at h
  split at h
  · cases h
  · next reply s' h_send =>
    have h_rests := send hB h_quiet h_send
    -- no R2T is asked for, so the table stays as it is
    have h_type : reply.type ≠ .r2t := by
      obtain ⟨h_write, h_same⟩ := ScsiOpcode.not_write_of_quiet h_quiet
      exact (Scsi.send_kind h_write h_same h_send).1.not_r2t
    split at h
    · cases h
    · next h_status =>
      obtain rfl := Except.ok.inj h
      obtain rfl := statusReply h_type h_status
      exact h_rests
    · next h_status =>
      obtain rfl := Except.ok.inj h
      obtain rfl := statusReply h_type h_status
      exact h_rests

theorem getResponse (hB : T.backend.Stores medium) (hq : q.Quiet)
    {r : Option ResponseSet × Conn β} (h : getResponse T fuel c q = .ok r) :
    c.Rests T medium r.2 := by
  unfold IscsiTarget.getResponse at h
  cases hop : q.bhs.getOpcode <;> rw [hop] at h <;> dsimp only at h
  case scsiCmd => exact scsiCmdGetResponse hB (hq.command hop) h
  case scsiTaskman => exact absurd hop hq.not_taskman
  case loginReq =>
    cases h_set : LoginReplyPdu.set T fuel c q.bhs with
    | error f => simp [h_set, Except.map] at h
    | ok p =>
      rw [h_set] at h
      obtain rfl := Except.ok.inj h
      exact refl c
  all_goals
    obtain rfl := Except.ok.inj h
    exact refl c

/-- **A quiet PDU leaves everything at rest**, whatever it is answered with, and
whether the reads and sends succeed or not. -/
theorem serve (hB : T.backend.Stores medium) (hq : q.Quiet) {c' : Conn β}
    (h : serve T fuel c q = .ok c') : c.Rests T medium c' := by
  unfold IscsiTarget.serve pushResponse at h
  rw [if_neg hq.not_dataOut] at h
  cases h_get : IscsiTarget.getResponse T fuel { c with scsi := c.scsi.note (.received q) } q with
  | error f => simp [h_get] at h
  | ok a =>
    rw [h_get] at h
    dsimp only at h
    -- what is built, what is sent, and what the handler adds to it
    have h_built := (note c (.received q)).trans (getResponse hB hq h_get)
    cases h_finish : IscsiTarget.finishResponse T fuel q a with
    | error f => simp [h_finish] at h
    | ok r =>
      rw [h_finish] at h
      dsimp only at h
      cases h_reply : IscsiTarget.replyToFailure T r.2 (some q) r.1 with
      | error f => simp [h_reply, Except.map] at h
      | ok reply =>
        rw [h_reply] at h
        obtain rfl := Except.ok.inj h
        exact (h_built.trans (finishResponse hB h_finish)).trans (replyToFailure h_reply)

end Conn.Rests

end IscsiTarget
