import IscsiTarget.Write.Refinement

/-!
# A WRITE among other commands

A `Delivery` brings its payload to the medium; here is what it does to everything else. The
R2T sessions of other tags stay what they are, the device keeps its size, and by the time the
R2T session of the delivery is gone a GOOD response has been sent. `OnTheWay` has all of that
beside the invariant of the assembly, and `Delivery.stored` is its end.
-/

namespace IscsiTarget

variable {β : Type} {T : Target β} {medium : β → Medium UInt8}

/-- A GOOD response has been sent between the two states. -/
def Conn.Told (c c' : Conn β) : Prop :=
  ∃ evs p ok, c.scsi.Does c'.scsi evs ∧ .sent (.scsiResponse p) ok ∈ evs ∧ p.status = 0

namespace Conn.Told

variable {c c₁ c₂ : Conn β}

theorem before (h₁ : c.Extends c₁) (h₂ : c₁.Told c₂) : c.Told c₂ := by
  obtain ⟨es, hes⟩ := h₁
  obtain ⟨fs, p, ok, hfs, h_mem, h_good⟩ := h₂
  exact ⟨_, p, ok, hes.trans hfs, List.mem_append_right es h_mem, h_good⟩

theorem after (h₁ : c.Told c₁) (h₂ : c₁.Extends c₂) : c.Told c₂ := by
  obtain ⟨es, p, ok, hes, h_mem, h_good⟩ := h₁
  obtain ⟨fs, hfs⟩ := h₂
  exact ⟨_, p, ok, hes.trans hfs, List.mem_append_left fs h_mem, h_good⟩

theorem emit (c : Conn β) {p : ScsiResponsePdu} (h : p.status = 0) :
    c.Told (c.emit T (.scsiResponse p)) :=
  ⟨_, p, _, Scsi.does_note _, List.mem_singleton_self _, h⟩

end Conn.Told

/-- Registering an R2T session leaves the other tags alone. -/
theorem Session.getR2tSesion_initR2tSession_of_ne (ses : Session) {t ttt : UInt32} (h : t ≠ ttt)
    (rs : R2tSession) (fua : Bool) (pdu : Header) :
    (ses.initR2tSession rs fua pdu ttt).getR2tSesion t = ses.getR2tSesion t := by
  unfold initR2tSession getR2tSesion
  split
  · rfl
  · exact Function.update_of_ne h _ _

/-! ### One Data-Out -/

section

variable {c c' : Conn β} {q d : Pdu}

theorem Delivered.getR2tSesion_of_ne {session session' : R2tSession}
    (h : Delivered T c d session session' c') {t : UInt32} (ht : t ≠ d.tag) :
    c'.ses.getR2tSesion t = c.ses.getR2tSesion t := by
  cases h with
  | empty hd => rfl
  | data hd halign hwritten hsync => exact c.ses.getR2tSesion_setR2tSession_of_ne ht _

theorem closeBatch_getR2tSesion_of_ne (c : Conn β) (session : R2tSession) {tag t : UInt32}
    (ht : t ≠ tag) :
    (closeBatch T c session tag).ses.getR2tSesion t = c.ses.getR2tSesion t := by
  by_cases hz : session.bytesLeft = 0
  · rw [closeBatch, if_pos hz]
    exact c.ses.getR2tSesion_removeR2tSession_of_ne ht
  · rw [closeBatch_ses_of_ne_zero _ _ hz]

/-- **A Data-Out leaves the other R2T sessions alone.** -/
theorem DataOutOutcome.getR2tSesion_of_ne (h : DataOutOutcome T c d c') {t : UInt32}
    (ht : t ≠ d.tag) : c'.ses.getR2tSesion t = c.ses.getR2tSesion t := by
  cases h with
  | unknown hses => rfl
  | refused hses hbad => rfl
  | writeFailed hses hd halign hwritten => rfl
  | syncFalse hses hd halign hwritten hfua hsync => rfl
  | delivered hses hd hdel hF => exact hdel.getR2tSesion_of_ne ht
  | finished hses hdel hF =>
    rw [closeBatch_getR2tSesion_of_ne _ _ ht]
    exact hdel.getR2tSesion_of_ne ht

/-- An R2T session does not go without a GOOD response: it is taken out of the
table where that is sent. -/
theorem DataOutOutcome.told (h : DataOutOutcome T c d c')
    (h_none : c'.ses.getR2tSesion d.tag = none)
    (h_some : c.ses.getR2tSesion d.tag ≠ none) : c.Told c' := by
  cases h with
  | unknown hses => exact absurd hses h_some
  | refused hses hbad => exact absurd h_none h_some
  | writeFailed hses hd halign hwritten => exact absurd h_none h_some
  | syncFalse hses hd halign hwritten hfua hsync => exact absurd h_none h_some
  | delivered hses hd hdel hF =>
    rw [hdel.getR2tSesion hses] at h_none
    exact absurd h_none (by simp)
  -- the session goes when nothing is left, and the answer has been sent by then
  | @finished session session' c₁ hses hdel hF =>
    by_cases hz : session'.bytesLeft = 0
    · rw [closeBatch, if_pos hz]
      refine .before hdel.extends (.before ⟨[], Scsi.Does.refl _⟩ (.emit _ ?_))
      rfl
    · rw [closeBatch_ses_of_ne_zero _ _ hz, hdel.getR2tSesion hses] at h_none
      exact absurd h_none (by simp)

/-- The data of a Data-Out inside its buffer does not change the size of the
device. Whatever the Data-Out comes to, what is written lies in the range of the
command. -/
theorem Assembling.size_eq (hB : T.backend.Stores medium) {m₀ : Medium UInt8} {payload : Bytes}
    {tag : UInt32} {rest : List Pdu}
    (h : Assembling T medium m₀ q payload tag (d :: rest) c) (hc : NoFailure c c')
    (hstep : DataOutOutcome T c d c') : c'.scsi.size T = c.scsi.size T := by
  -- what is written stays inside the device, so the contract of the backend applies
  have h_delivered {session session' : R2tSession} {c₁ : Conn β}
      (hses : c.ses.getR2tSesion d.tag = some session)
      (hdel : Delivered T c d session session' c₁) : c₁.scsi.size T = c.scsi.size T := by
    obtain ⟨-, haw⟩ := h.awaits hses
    cases hdel with
    | empty hd => rfl
    | data hd halign hwritten hsync =>
      have h_in := (h.carries d List.mem_cons_self).inside hd
      rw [h.length] at h_in
      obtain ⟨-, h_size⟩ := writtenDataOut_medium hB (n := q.nBlocks.toNat) haw.isWriteSame
        halign h_in (by rw [haw.bufferLba]; exact h.inside) hwritten
      exact (syncedIf_medium hB session.fua _).2.trans h_size
  cases hstep with
  | unknown hses => rfl
  | refused hses hbad => rfl
  -- no call fails and the device is not reserved, so a write that does not work is out of the
  -- question
  | @writeFailed session hses hd halign hwritten =>
    obtain ⟨evs, ht⟩ := transfers_writtenDataOut (T := T) c d session
    rcases ht.result with h_ok | h_locked | h_general
    · exact absurd h_ok hwritten
    · exact absurd (ht.locked h_locked) h.unlocked
    · exact absurd h_general (hc.not_failGeneral (.receive c d) ht c.ses (.emit _ _))
  | syncFalse hses hd halign hwritten hfua hsync =>
    rw [(h.awaits hses).2.fua] at hfua
    exact absurd hfua (by simp)
  | delivered hses hd hdel hF => exact h_delivered hses hdel
  | finished hses hdel hF =>
    rw [Scsi.size, Scsi.getSizeInBlocks, closeBatch_disk]
    exact h_delivered hses hdel

end

/-! ### The whole delivery -/

/-- A delivery on its way, seen from the connection `c₀` it began on. It is the
invariant of a run of Data-Outs: the payload so far is on the medium, and only
the R2T session of the task has changed. -/
structure OnTheWay (T : Target β) (medium : β → Medium UInt8) (c₀ : Conn β) (q : Pdu)
    (payload : Bytes) (rest : List Pdu) (c : Conn β) : Prop where
  assembling : Assembling T medium (medium c₀.scsi.disk) q payload (commandTag T c₀ q) rest c
  grows : c₀.Extends c
  size_eq : c.scsi.size T = c₀.scsi.size T
  others : ∀ t, t ≠ commandTag T c₀ q → c.ses.getR2tSesion t = c₀.ses.getR2tSesion t
  told : c.ses.getR2tSesion (commandTag T c₀ q) = none → c₀.Told c

/-- What a delivery leaves behind: the payload, and nothing else. The R2T
session is gone, and the initiator has been told. -/
structure Stored (T : Target β) (medium : β → Medium UInt8) (q : Pdu) (payload : Bytes)
    (c c' : Conn β) : Prop where
  medium_eq : medium c'.scsi.disk = (medium c.scsi.disk).store (q.lba.toNat * T.blockSize) payload
  size_eq : c'.scsi.size T = c.scsi.size T
  table_eq : c'.ses.r2tSessions = c.ses.r2tSessions
  told : c.Told c'

variable {c₀ c c' : Conn β} {q d : Pdu} {payload : Bytes} {dos rest : List Pdu}

/-- **Every Data-Out of the delivery keeps the invariant.** -/
theorem OnTheWay.step (hB : T.backend.Stores medium)
    (h : OnTheWay T medium c₀ q payload (d :: rest) c) (hc : NoFailure c c')
    (hstep : DataOutOutcome T c d c') : OnTheWay T medium c₀ q payload rest c' := by
  have h_tag := (h.assembling.carries d List.mem_cons_self).tag_eq
  refine ⟨h.assembling.step hB hc hstep, h.grows.trans hstep.extends,
    (h.assembling.size_eq hB hc hstep).trans h.size_eq, fun t ht => ?_, fun h_none => ?_⟩
  · rw [hstep.getR2tSesion_of_ne (by rw [h_tag]; exact ht)]
    exact h.others t ht
  · by_cases h_was : c.ses.getR2tSesion (commandTag T c₀ q) = none
    · exact (h.told h_was).after hstep.extends
    · rw [← h_tag] at h_none h_was
      exact .before h.grows (hstep.told h_none h_was)

/-- A delivery that has come to its end: nothing is still to come, so that all
of the payload has arrived. -/
theorem OnTheWay.stored (h : OnTheWay T medium c₀ q payload [] c)
    (hfresh : c₀.ses.getR2tSesion (commandTag T c₀ q) = none) :
    Stored T medium q payload c₀ c := by
  have h_none : c.ses.getR2tSesion (commandTag T c₀ q) = none := by
    rcases h.assembling.table with ⟨-, -, -, hne⟩ | ⟨hnone, -⟩
    · exact absurd rfl hne
    · exact hnone
  refine ⟨Medium.eq_store_of_holds (fun p hp => h.assembling.arrived p hp (by simp))
    h.assembling.outside, h.size_eq, funext fun t => ?_, h.told h_none⟩
  by_cases ht : t = commandTag T c₀ q
  · subst ht
    exact h_none.trans hfresh.symm
  · exact h.others t ht

/-- **A delivery stores its payload and does nothing else**, unless the code
takes it for a WRITE with FUA, and if no backend call fails on the way. -/
theorem Delivery.stored (hB : T.backend.Stores medium) (fuel : ℕ)
    (h : Delivery T c q payload dos) (h_unlocked : c.scsi.lockingStatus T ≠ .lockedOther)
    (h_fua : q.fua = true → q.data.length = nBytesOf T q) :
    ∃ c', Machine.run (serve T fuel) c (q :: dos) = .ok c' ∧ c.Extends c' ∧
      (NoFailure c c' → Stored T medium q payload c c') := by
  obtain ⟨c₁, h_serve, h_out⟩ := serve_write (T := T) fuel c h.write
  obtain ⟨c', h_run⟩ := run_dataOuts_ok (T := T) fuel h.opcodes c₁
  have h_ext₁ := h_out.extends
  have h_ext₂ : c₁.Extends c' := (run_dataOuts (I := fun _ _ => True)
    (fun _ _ _ _ _ _ _ => trivial) h.opcodes trivial h_run).1
  refine ⟨c', by rw [Machine.run_cons_ok h_serve, h_run], h_ext₁.trans h_ext₂, fun hc => ?_⟩
  have hc₁ : NoFailure c c₁ := hc.part (.refl c) h_ext₁ h_ext₂
  have hc₂ : NoFailure c₁ c' := hc.part h_ext₁ h_ext₂ (.refl c')
  cases h_out with
  | refused hcheck =>
    rw [h.writeCheck_eq_none] at hcheck
    exact absurd hcheck (by simp)
  | conflict hcheck hstored => exact absurd (Delivery.locked_of_conflict hstored) h_unlocked
  | failed hcheck hstored =>
    obtain ⟨evs, ht⟩ :=
      Scsi.transfers_storeImmediate (T := T) (c.receive q).scsi q.lba q.nBlocks q.data
    exact absurd hstored (hc₁.not_failGeneral (.receive c q) ht c.ses (.refl _))
  | complete hcheck hstored hcomplete =>
    -- the immediate data is the payload, and the Data-Outs are empty
    have h_len := h.complete_iff.mp hcomplete
    have h_data : q.data = payload := h.immediate.eq_of_length (by rw [h_len, h.length])
    obtain ⟨h_med, h_size⟩ := h.storedImmediate_medium hB hstored
    obtain ⟨h_smed, h_ssize⟩ := syncedIf_medium hB (q.fua && decide (q.data ≠ []))
      (storedImmediate T c q).2
    rw [h_data] at h_med
    refine ((run_dataOuts (I := fun rest s => (∀ d ∈ rest, d.tag = commandTag T c q) ∧
      Stored T medium q payload c s) ?_ h.opcodes
      ⟨fun d hd => (h.carries d hd).tag_eq, ?_⟩ h_run).2 hc₂).2
    · rintro d rest s s' ⟨h_tags, hI⟩ - hstep
      have h_none : s.ses.getR2tSesion d.tag = none := by
        rw [h_tags d List.mem_cons_self, Session.getR2tSesion, hI.table_eq]
        exact h.fresh
      have h_ext := hstep.extends
      obtain rfl := hstep.eq_receive h_none
      exact ⟨fun e he => h_tags e (List.mem_cons_of_mem d he),
        { hI with told := hI.told.after h_ext }⟩
    · refine ⟨h_smed.trans h_med, h_ssize.trans h_size, rfl, ?_⟩
      obtain ⟨evs, h_sync, -⟩ := does_syncedIf (T := T) (q.fua && decide (q.data ≠ []))
        (storedImmediate T c q).2
      exact .before ((extends_storedImmediate c q).move ⟨evs, h_sync⟩ c.ses) (.emit _ rfl)
  | mismatch hcheck hstored hcomplete hlen => exact absurd h.expDatLen.symm hlen
  | transfer hcheck hstored hcomplete hlen =>
    have h_le := h.length_le
    have h_lt : q.data.length < nBytesOf T q := by
      rw [h.complete_iff] at hcomplete
      omega
    have h_clear : q.fua = false := by
      rw [← Bool.not_eq_true]
      exact fun h_set => absurd (h_fua h_set) h_lt.ne
    have h_start : OnTheWay T medium c q payload dos
        (openTransfer T { c with scsi := (storedImmediate T c q).2 } q) := by
      refine ⟨h.assembling hB h_unlocked h_clear hstored h_lt, extends_transfer c q, ?_,
        fun t ht => ?_, fun h_none => ?_⟩
      · rw [Scsi.size, Scsi.getSizeInBlocks, openTransfer_disk]
        exact (h.storedImmediate_medium hB hstored).2
      · rw [openTransfer_ses]
        exact c.ses.getR2tSesion_initR2tSession_of_ne ht _ _ _
      · rw [getR2tSesion_openTransfer h.fresh] at h_none
        exact absurd h_none (by simp)
    exact (((run_dataOuts (I := OnTheWay T medium c q payload)
      (fun d rest s s' hI hc hstep => hI.step hB hc hstep) h.opcodes h_start h_run).2
        hc₂)).stored h.fresh

end IscsiTarget
