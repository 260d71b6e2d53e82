import IscsiTarget.Lib.Run
import IscsiTarget.Lib.Trace
import IscsiTarget.Model.Sample
import IscsiTarget.Write.Task

/-!
# FUA and SYNCHRONIZE CACHE

What a command has written is durable when all its writes have succeeded and a sync
after the last of them has (`Durable`). A command that asks for durability should be
answered with GOOD in that case, and only then: `AnswersDurably h es` says so for the
SCSI Responses among the events `es`, after the events `h` of the same command.

The result of a sync reaches three places. SYNCHRONIZE CACHE and a WRITE with
complete immediate data do not look at it. A Data-Out compares it with `false`, and
the enumerator for success is the one that is equal to `false`. `durability_iff`
says exactly which commands and which Data-Outs are answered durably all the same.
-/

namespace IscsiTarget

variable {β : Type} (T : Target β)

/-! ### Durability -/

/-- All the writes have succeeded, and a sync after the last of them has. -/
def Durable (es : List Event) : Prop :=
  (∀ e ∈ es, e.IsWrite → ¬ e.Failed) ∧
    ∃ pre post, es = pre ++ .io .sync true :: post ∧ ∀ e ∈ post, ¬ e.IsWrite

/-- Every SCSI Response is GOOD exactly when what was written is durable by
then. -/
def AnswersDurably (h es : List Event) : Prop :=
  ∀ pre p ok post, es = pre ++ .sent (.scsiResponse p) ok :: post →
    (p.status = 0 ↔ Durable (h ++ pre))

/-- The next sync is not stopped and succeeds. -/
def SyncSucceeds (s : Scsi β) : Prop :=
  s.lockingStatus T ≠ .lockedOther ∧ (T.backend.sync s.disk).1 = true

instance (s : Scsi β) : Decidable (SyncSucceeds T s) := inferInstanceAs (Decidable (_ ∧ _))

/-- The R2T session writes nothing at all. Only one of a WRITE SAME can be like
that. -/
def NothingToWrite (session : R2tSession) : Prop :=
  session.isWriteSame = true ∧ session.bytesLeft.toNat / T.blockSize = 0 ∧
    (session.writeSameIsUnmap = true → T.trimLevel = 0)

/-- A WRITE command that is answered durably: with complete immediate data the
sync succeeds, and data that is missing is asked for. -/
def CommandDurable (c : Conn β) (q : Pdu) : Prop :=
  writeCheck T c q = none → (storedImmediate T c q).1 = .ok →
    (Complete T q → q.data ≠ [] ∧ SyncSucceeds T (storedImmediate T c q).2) ∧
      (¬ Complete T q → nBytesOf T q = q.bhs.getExpDatLen.toNat)

/-- What the command has done since its trace had the length `n`. -/
def since (n : ℕ) (c : Conn β) : List Event := c.scsi.history.drop n

/-- A Data-Out that is answered durably, the command having started when the
trace had the length `n`. An empty one closes a burst only when everything is
durable already. When data is written and the sync succeeds, an error is
reported, so an earlier write has to have failed. When it does not succeed, the
data is counted, so the burst has to stay open. -/
def DataOutDurable (n : ℕ) (c : Conn β) (d : Pdu) : Prop :=
  ∀ session, c.ses.getR2tSesion d.tag = some session →
    (d.data = [] → d.bhs.getF = true → Durable (since n c)) ∧
    (d.data ≠ [] → d.Aligned T.blockSize → (writtenDataOut T c d session).1 = .ok →
      if session.fua = true ∧ SyncSucceeds T (writtenDataOut T c d session).2 then
        ∃ e ∈ since n c, e.IsWrite ∧ e.Failed
      else d.bhs.getF = true → NothingToWrite T session ∧ Durable (since n c))

variable {T}

/-! ### What makes and what spoils durability -/

/-- The event is neither a write nor a successful sync. -/
def Event.Neutral (e : Event) : Prop := ¬ e.IsWrite ∧ e ≠ .io .sync true

theorem neutral_received (q : Pdu) : (Event.received q).Neutral := ⟨id, by simp⟩

theorem neutral_sync_false : (Event.io .sync false).Neutral := ⟨id, by simp⟩

/-- Neutral events change nothing. -/
theorem durable_append_neutral {es fs : List Event} (hfs : ∀ e ∈ fs, e.Neutral) :
    Durable (es ++ fs) ↔ Durable es := by
  constructor
  · rintro ⟨h_writes, pre, post, heq, h_post⟩
    refine ⟨fun e he => h_writes e (List.mem_append_left _ he), ?_⟩
    rcases Trace.append_eq_iff.mp heq with ⟨mid, rfl, rfl⟩ | ⟨mid, rfl, rfl⟩
    · exact ⟨pre, mid, rfl, fun e he => h_post e (List.mem_append_left _ he)⟩
    · exact absurd rfl (hfs (.io .sync true) (by simp)).2
  · rintro ⟨h_writes, pre, post, rfl, h_post⟩
    refine ⟨?_, pre, post ++ fs, by simp, ?_⟩
    · refine List.forall_mem_append.mpr ⟨h_writes, fun e he hw => absurd hw (hfs e he).1⟩
    · exact List.forall_mem_append.mpr ⟨h_post, fun e he => (hfs e he).1⟩

/-- After a successful sync only the writes count. -/
theorem durable_append_sync {es : List Event} :
    Durable (es ++ [.io .sync true]) ↔ ∀ e ∈ es, e.IsWrite → ¬ e.Failed := by
  constructor
  · rintro ⟨h_writes, -⟩ e he
    exact h_writes e (List.mem_append_left _ he)
  · intro h
    refine ⟨List.forall_mem_append.mpr ⟨h, by simp [Event.Failed]⟩, es, [], rfl, by simp⟩

/-- A write that failed spoils it. -/
theorem not_durable_of_failed {es : List Event} {e : Event} (he : e ∈ es) (hw : e.IsWrite)
    (hf : e.Failed) : ¬ Durable es := fun h => h.1 e he hw hf

/-- A write without a successful sync behind it spoils it. -/
theorem not_durable_of_write {es fs : List Event} {e : Event} (he : e ∈ fs) (hw : e.IsWrite)
    (hfs : ∀ e ∈ fs, e ≠ .io .sync true) : ¬ Durable (es ++ fs) := by
  rintro ⟨-, pre, post, heq, h_post⟩
  rcases Trace.append_eq_iff.mp heq with ⟨mid, rfl, rfl⟩ | ⟨mid, rfl, rfl⟩
  · exact h_post e (List.mem_append_right _ he) hw
  · exact hfs (.io .sync true) (by simp) rfl

/-- Without a successful sync nothing is durable. -/
theorem not_durable_of_no_sync {es : List Event} (h : ∀ e ∈ es, e ≠ .io .sync true) :
    ¬ Durable es := by
  rintro ⟨-, pre, post, rfl, -⟩
  exact h (.io .sync true) (by simp) rfl

/-! ### Answers -/

theorem answersDurably_nil (h : List Event) : AnswersDurably h [] := by
  intro pre p ok post heq
  simp at heq

theorem answersDurably_append (h es fs : List Event) :
    AnswersDurably h (es ++ fs) ↔ AnswersDurably h es ∧ AnswersDurably (h ++ es) fs := by
  constructor
  · -- a response in either part is one of the whole
    intro hall
    refine ⟨fun pre p ok post heq => ?_, fun pre p ok post heq => ?_⟩
    · exact hall pre p ok (post ++ fs) (by rw [heq]; simp)
    · rw [List.append_assoc]
      exact hall (es ++ pre) p ok post (by rw [heq]; simp)
  · -- and a response of the whole is in the first part or in the second
    rintro ⟨h₁, h₂⟩ pre p ok post heq
    rcases Trace.append_eq_iff.mp heq with ⟨mid, rfl, -⟩ | ⟨mid, rfl, rfl⟩
    · exact h₁ pre p ok mid rfl
    · rw [← List.append_assoc]
      exact h₂ mid p ok post rfl

/-- The event is a SCSI Response. -/
def Event.IsResponse : Event → Prop
  | .sent (.scsiResponse _) _ => True
  | _ => False

/-- A transfer is neither a response nor a sync. -/
theorem quiet_of_transfer {e : Event} (h : e.IsTransfer) : ¬ e.IsResponse ∧ e ≠ .io .sync true := by
  cases e with
  | io call ok => exact ⟨id, by rintro ⟨⟩; exact h⟩
  | received q => exact absurd h id
  | sent p ok => exact absurd h id

theorem quiet_received (q : Pdu) :
    ¬ (Event.received q).IsResponse ∧ Event.received q ≠ .io .sync true := ⟨id, by simp⟩

/-- Events without a SCSI Response. -/
theorem answersDurably_of_silent {h es : List Event} (hes : ∀ e ∈ es, ¬ e.IsResponse) :
    AnswersDurably h es := by
  rintro pre p ok post rfl
  exact absurd trivial (hes (.sent (.scsiResponse p) ok) (by simp))

/-- Events with one SCSI Response among them. What counts is the trace in front
of it. -/
theorem answersDurably_response {h es rest : List Event} (hes : ∀ e ∈ es, ¬ e.IsResponse)
    (hrest : ∀ e ∈ rest, ¬ e.IsResponse) (p : ScsiResponsePdu) (ok : Bool) :
    AnswersDurably h (es ++ .sent (.scsiResponse p) ok :: rest) ↔
      (p.status = 0 ↔ Durable (h ++ es)) := by
  constructor
  · intro hall
    exact hall es p ok rest rfl
  · intro hp pre p' ok' post heq
    rcases Trace.append_eq_iff.mp heq with ⟨mid, rfl, -⟩ | ⟨mid, rfl, h_rest⟩
    · -- the response of the decomposition is not among the events before
      exact absurd trivial (hes (.sent (.scsiResponse p') ok') (by simp))
    · -- so it is this one, or one behind it, where there is none
      cases mid with
      | nil =>
        simp only [List.nil_append, List.cons.injEq, Event.sent.injEq,
          PduOut.scsiResponse.injEq] at h_rest
        rw [← h_rest.1.1, List.append_nil]
        exact hp
      | cons a mid =>
        rw [List.cons_append, List.cons.injEq] at h_rest
        exact absurd trivial (hrest (.sent (.scsiResponse p') ok') (by rw [h_rest.2]; simp))

/-! ### Syncs and writes -/

/-- A sync whose result equals `false` has succeeded. -/
theorem sync_of_eqFalse {s : Scsi β} (h : (s.sync T).1.eqFalse = true) :
    SyncSucceeds T s ∧ s.Does (s.sync T).2 [.io .sync true] := by
  have hl : s.lockingStatus T ≠ .lockedOther := by
    intro hl
    rw [Scsi.sync_of_locked hl] at h
    exact absurd h (by simp [RwResult.eqFalse, RwResult.value])
  rw [Scsi.eqFalse_sync_of_unlocked hl] at h
  have h_does := Scsi.does_sync_of_unlocked hl
  rw [h] at h_does
  exact ⟨⟨hl, h⟩, h_does⟩

/-- A sync whose result does not equal `false` has not. -/
theorem sync_of_not_eqFalse {s : Scsi β} (h : (s.sync T).1.eqFalse = false) :
    ¬ SyncSucceeds T s ∧ ∃ es, s.Does (s.sync T).2 es ∧ ∀ e ∈ es, e = .io .sync false := by
  by_cases hl : s.lockingStatus T = .lockedOther
  · refine ⟨fun hs => hs.1 hl, [], ?_, by simp⟩
    rw [Scsi.sync_of_locked hl]
    exact .refl s
  · rw [Scsi.eqFalse_sync_of_unlocked hl] at h
    have h_does := Scsi.does_sync_of_unlocked hl
    rw [h] at h_does
    exact ⟨fun hs => absurd (hs.2.symm.trans h) (by simp), _, h_does, by simp⟩

/-- A call that succeeds, and a loop over the rest: something was written. -/
theorem ne_nil_of_loop {s s' : Scsi β} {blockNr : UInt64} {data : Bytes} {es fs : List Event}
    (hok : (s.write T blockNr 1 data).1 = .ok) (hrest : (s.write T blockNr 1 data).2.Does s' fs)
    (hall : s.Does s' es) : es ≠ [] := by
  rw [← ((Scsi.write_ok hok).1.trans hrest).unique hall]
  simp

/-- Zeros that are written: only none leave no trace, since each block is a call
of its own. -/
theorem writeZeros_eq_nil_iff {k : ℕ} {blockNr : UInt64} {s : Scsi β} {es : List Event}
    (hok : (Scsi.writeZeros T k blockNr s).1 = .ok)
    (h : s.Does (Scsi.writeZeros T k blockNr s).2 es) : es = [] ↔ k = 0 := by
  cases k with
  | zero => simp [(Scsi.Does.refl s).unique h]
  -- the first block of zeros is written, and leaves a call in the trace
  | succ k =>
    refine iff_of_false ?_ (by omega)
    rw [Scsi.writeZeros] at hok h
    rcases hw : s.write T blockNr 1 (List.replicate T.blockSize 0) with ⟨rc, s'⟩
    rw [hw] at hok h
    cases rc with
    | ok =>
      obtain ⟨fs, h_rest⟩ := Scsi.writes_writeZeros (T := T) k (blockNr + 1) s'
      exact ne_nil_of_loop (by rw [hw]) (by rw [hw]; exact h_rest.does) h
    | failRw => exact absurd hok (by simp)
    | failLocked => exact absurd hok (by simp)
    | failGeneral => exact absurd hok (by simp)
    | failMismatch => exact absurd hok (by simp)

/-- Blocks that are written: only none leave no trace. The first turn of the
loop calls the backend, unless there is no turn. -/
theorem writeSameBlocks_eq_nil_iff {data : Bytes} {k : ℕ} {lba : UInt64} {s : Scsi β}
    {es : List Event} (hok : (Scsi.writeSameBlocks T false data k lba s).1 = .ok)
    (h : s.Does (Scsi.writeSameBlocks T false data k lba s).2 es) : es = [] ↔ k = 0 := by
  cases k with
  | zero => simp [(Scsi.Does.refl s).unique h]
  -- the first block is written, and leaves a call in the trace
  | succ k =>
    refine iff_of_false ?_ (by omega)
    rw [Scsi.writeSameBlocks] at hok h
    have h_block : s.writeSameBlock T false data lba = s.write T lba 1 data := rfl
    rw [h_block] at hok h
    rcases hw : s.write T lba 1 data with ⟨rc, s'⟩
    rw [hw] at hok h
    cases rc with
    | ok =>
      obtain ⟨fs, h_rest⟩ := Scsi.writes_writeSameBlocks (T := T) false data k (lba + 1) s'
      exact ne_nil_of_loop (by rw [hw]) (by rw [hw]; exact h_rest.does) h
    | failRw => exact absurd hok (by simp)
    | failLocked => exact absurd hok (by simp)
    | failGeneral => exact absurd hok (by simp)
    | failMismatch => exact absurd hok (by simp)

/-- A trim that leaves no trace: that of no blocks, at the level at which zeros
are written instead. -/
theorem trim_eq_nil_iff {blockNr : UInt64} {n : UInt32} {s : Scsi β} {es : List Event}
    (hok : (s.trim T blockNr n).1 = .ok) (h : s.Does (s.trim T blockNr n).2 es) :
    es = [] ↔ n.toNat = 0 ∧ T.trimLevel = 0 := by
  have hl : s.lockingStatus T ≠ .lockedOther := by
    intro hl
    rw [Scsi.trim, if_neg (not_not.mpr hl)] at hok
    exact absurd hok (by simp)
  rw [Scsi.trim, if_pos hl] at hok h
  by_cases ht : T.trimLevel = 0
  · rw [if_pos ht] at hok h
    -- level 0 writes as many blocks of zeros
    rw [writeZeros_eq_nil_iff hok h]
    simp [ht]
  · -- the other levels make their one call in any case
    rw [if_neg ht] at h
    rw [← (Scsi.does_afterCall _ _).unique h]
    simp [ht]

/-- **Data that is written leaves a trace**, except for a WRITE SAME that has no
blocks left. -/
theorem written_eq_nil_iff {c : Conn β} {d : Pdu} {session : R2tSession} {es : List Event}
    (hok : (writtenDataOut T c d session).1 = .ok)
    (h : (c.receive d).scsi.Does (writtenDataOut T c d session).2 es) :
    es = [] ↔ NothingToWrite T session := by
  have h_n : (UInt32.ofNat (session.bytesLeft.toNat / T.blockSize)).toNat =
      session.bytesLeft.toNat / T.blockSize :=
    toNat_ofNat_32 ((Nat.div_le_self _ _).trans_lt session.bytesLeft.toNat_lt)
  by_cases hsame : session.isWriteSame = true
  · by_cases hunmap : session.writeSameIsUnmap = true
    · -- the trim of a WRITE SAME with UNMAP
      have h_eq : writtenDataOut T c d session = (c.receive d).scsi.trim T session.bufferLba
          (UInt32.ofNat (session.bytesLeft.toNat / T.blockSize)) := by
        simp only [writtenDataOut, writeDataOut, hsame, hunmap, if_true]
      rw [h_eq] at hok h
      rw [trim_eq_nil_iff hok h, h_n]
      simp [NothingToWrite, hsame, hunmap]
    · -- the blocks of one without
      have h_eq : writtenDataOut T c d session = Scsi.writeSameBlocks T false d.data
          (UInt32.ofNat (session.bytesLeft.toNat / T.blockSize)).toNat
          (session.bufferLba + UInt64.ofNat (d.bhs.getBufferOffset.toNat / T.blockSize))
          (c.receive d).scsi := by
        simp only [writtenDataOut, writeDataOut, hsame, hunmap, if_true]
        rfl
      rw [h_eq] at hok h
      rw [writeSameBlocks_eq_nil_iff hok h, h_n]
      simp [NothingToWrite, hsame, hunmap]
  · -- a WRITE always makes its call
    rw [writtenDataOut_of_write (by simpa using hsame)] at hok h
    rw [← (Scsi.write_ok hok).1.unique h]
    simp [NothingToWrite, hsame]

/-! ### One Data-Out -/

variable {c c' : Conn β} {d : Pdu} {session session' : R2tSession} {n : ℕ}

/-- The condition on a Data-Out whose R2T session is known. -/
theorem dataOutDurable_iff (hses : c.ses.getR2tSesion d.tag = some session) :
    DataOutDurable T n c d ↔
      (d.data = [] → d.bhs.getF = true → Durable (since n c)) ∧
      (d.data ≠ [] → d.Aligned T.blockSize → (writtenDataOut T c d session).1 = .ok →
        if session.fua = true ∧ SyncSucceeds T (writtenDataOut T c d session).2 then
          ∃ e ∈ since n c, e.IsWrite ∧ e.Failed
        else d.bhs.getF = true → NothingToWrite T session ∧ Durable (since n c)) := by
  refine ⟨fun h => h session hses, fun h session' hses' => ?_⟩
  obtain rfl := Option.some.inj (hses.symm.trans hses')
  exact h

/-- Data that is taken although a sync was asked for was not synced. -/
theorem not_syncSucceeds_of_taken
    (hsync : session.fua = true →
      ((writtenDataOut T c d session).2.sync T).1.eqFalse = false) :
    ¬ (session.fua = true ∧ SyncSucceeds T (writtenDataOut T c d session).2) :=
  fun h => (sync_of_not_eqFalse (hsync h.1)).1 h.2

/-- The condition on a Data-Out that is taken. -/
theorem Delivered.dataOutDurable_iff (h : Delivered T c d session session' c')
    (hses : c.ses.getR2tSesion d.tag = some session) :
    DataOutDurable T n c d ↔
      (d.bhs.getF = true → (d.data ≠ [] → NothingToWrite T session) ∧ Durable (since n c)) := by
  rw [IscsiTarget.dataOutDurable_iff hses]
  cases h with
  | empty hd => simp [hd]
  | data hd halign hwritten hsync =>
    rw [if_neg (not_syncSucceeds_of_taken hsync)]
    simp [hd, halign, hwritten]

/-- **Data that is taken**, after the events `es` of the same command: it was
not synced, so nothing is durable that was not before. -/
theorem Delivered.durable (h : Delivered T c d session session' c') :
    ∃ new, c.scsi.Does c'.scsi new ∧ (∀ e ∈ new, ¬ e.IsResponse ∧ e ≠ .io .sync true) ∧
      ∀ es, Durable (es ++ new) ↔ (d.data ≠ [] → NothingToWrite T session) ∧ Durable es := by
  cases h with
  | empty hd =>
    refine ⟨_, Scsi.does_note (.received d), by simp [Event.IsResponse], fun es => ?_⟩
    rw [durable_append_neutral (by simp [neutral_received])]
    simp [hd]
  | data hd halign hwritten hsync =>
    obtain ⟨ws, h_ws⟩ := writes_writtenDataOut (T := T) c d session
    obtain ⟨ss, h_sync, h_ss⟩ : ∃ ss, (writtenDataOut T c d session).2.Does
        (syncedIf T session.fua (writtenDataOut T c d session).2) ss ∧
        ∀ e ∈ ss, e = .io .sync false := by
      cases hfua : session.fua with
      | false => exact ⟨[], .refl _, by simp⟩
      | true => exact (sync_of_not_eqFalse (hsync hfua)).2
    have h_all : ∀ e ∈ .received d :: (ws ++ ss), ¬ e.IsResponse ∧ e ≠ .io .sync true := by
      refine List.forall_mem_cons.mpr ⟨quiet_received d, ?_⟩
      refine List.forall_mem_append.mpr ⟨fun e he => quiet_of_transfer (h_ws.transfer e he), ?_⟩
      intro e he
      rw [h_ss e he]
      simp [Event.IsResponse]
    refine ⟨_, (Scsi.does_note (.received d)).trans (h_ws.does.trans h_sync), h_all,
      fun es => ?_⟩
    by_cases h_nil : ws = []
    · -- nothing is written
      have h_nothing := (written_eq_nil_iff hwritten h_ws.does).mp h_nil
      subst h_nil
      rw [durable_append_neutral]
      · simp [h_nothing]
      · refine List.forall_mem_cons.mpr ⟨neutral_received d, fun e he => ?_⟩
        rw [h_ss e he]
        exact neutral_sync_false
    · obtain ⟨e, he⟩ := List.exists_mem_of_ne_nil ws h_nil
      -- something is written after the last sync there was
      refine iff_of_false ?_ fun h => h_nil ?_
      · exact not_durable_of_write
          (List.mem_append_right [.received d] (List.mem_append_left ss he))
          (h_ws.write e he) fun e he => (h_all e he).2
      · exact (written_eq_nil_iff hwritten h_ws.does).mpr (h.1 hd)

/-- The response to a failed Data-Out is durable when nothing else is. -/
theorem answersDurably_ioError {es new : List Event} (hnew : ∀ e ∈ new, ¬ e.IsResponse)
    (ok : Bool) :
    AnswersDurably es (new ++ [.sent (ioErrorPdu T d) ok]) ↔ ¬ Durable (es ++ new) := by
  rw [ioErrorPdu, answersDurably_response hnew (by simp)]
  simp [ScsiResponsePdu.set, errorReadError, fixedSense]

/-- The end of a burst is durable when everything is. -/
theorem answersDurably_good {es new asked : List Event} (hnew : ∀ e ∈ new, ¬ e.IsResponse)
    {tag : UInt32} (hasked : ∀ e ∈ asked, ∃ ok, e = .sent (restPdu T session tag) ok) (ok : Bool) :
    AnswersDurably es (new ++ .sent (goodPdu T session) ok :: asked) ↔ Durable (es ++ new) := by
  rw [goodPdu, answersDurably_response hnew]
  · simp [ScsiResponsePdu.set]
  · intro e he
    obtain ⟨ok, rfl⟩ := hasked e he
    exact id

/-- **A Data-Out.** When the device is reserved by another session, nothing of
the command has been synced, and nothing will be. -/
theorem DataOutOutcome.durable (h : DataOutOutcome T c d c')
    (hlocked : c.scsi.lockingStatus T = .lockedOther → ∀ e ∈ since n c, e ≠ .io .sync true) :
    ∃ new, c.scsi.Does c'.scsi new ∧
      (AnswersDurably (since n c) new ↔ DataOutDurable T n c d) ∧
      (c.scsi.lockingStatus T = .lockedOther → ∀ e ∈ new, e ≠ .io .sync true) := by
  have h_receive : ∀ e ∈ [Event.received d], ¬ e.IsResponse := by simp [Event.IsResponse]
  cases h with
  | unknown hses =>
    refine ⟨_, Scsi.does_note (.received d), iff_of_true (answersDurably_of_silent h_receive) ?_,
      by simp⟩
    intro session hses'
    exact absurd (hses.symm.trans hses') (by simp)
  | refused hses hbad =>
    refine ⟨_, Scsi.does_note (.received d), iff_of_true (answersDurably_of_silent h_receive) ?_,
      by simp⟩
    rw [dataOutDurable_iff hses]
    rcases hbad with ⟨hd, hF⟩ | ⟨hd, halign⟩
    · simp [hd, hF]
    · simp [hd, halign]
  | @writeFailed session hses hd halign hwritten =>
    obtain ⟨ws, h_ws⟩ := writes_writtenDataOut (T := T) c d session
    have h_write : ∀ e ∈ .received d :: ws, ¬ e.IsResponse ∧ e ≠ .io .sync true :=
      List.forall_mem_cons.mpr
        ⟨quiet_received d, fun e he => quiet_of_transfer (h_ws.transfer e he)⟩
    refine ⟨_, ((Scsi.does_note (.received d)).trans h_ws.does).trans (Scsi.does_note _), ?_, ?_⟩
    · refine iff_of_true ((answersDurably_ioError (fun e he => (h_write e he).1) _).mpr ?_) ?_
      · rcases h_ws.result with h | h | h
        · exact absurd h hwritten
        · -- stopped by the reservation, and so was every sync
          have hl := h_ws.locked h
          refine not_durable_of_no_sync (List.forall_mem_append.mpr ⟨hlocked hl, ?_⟩)
          exact fun e he => (h_write e he).2
        · obtain ⟨e, he, hf⟩ := h_ws.fail h
          exact not_durable_of_failed
            (List.mem_append_right _ (List.mem_append_right [.received d] he))
            (h_ws.write e he) hf
      · rw [dataOutDurable_iff hses]
        exact ⟨fun hd' => absurd hd' hd, fun _ _ hok => absurd hok hwritten⟩
    · intro _
      refine List.forall_mem_append.mpr ⟨fun e he => (h_write e he).2, by simp⟩
  | @syncFalse session hses hd halign hwritten hfua hsync =>
    obtain ⟨ws, h_ws⟩ := writes_writtenDataOut (T := T) c d session
    obtain ⟨h_succ, h_sync⟩ := sync_of_eqFalse hsync
    have h_silent : ∀ e ∈ (.received d :: ws) ++ [.io .sync true], ¬ e.IsResponse := by
      refine List.forall_mem_append.mpr ⟨?_, by simp [Event.IsResponse]⟩
      exact List.forall_mem_cons.mpr
        ⟨(quiet_received d).1, fun e he => (quiet_of_transfer (h_ws.transfer e he)).1⟩
    refine ⟨_, (((Scsi.does_note (.received d)).trans h_ws.does).trans h_sync).trans
      (Scsi.does_note _), ?_, ?_⟩
    · refine (answersDurably_ioError h_silent _).trans ?_
      rw [← List.append_assoc, durable_append_sync, dataOutDurable_iff hses,
        if_pos ⟨hfua, h_succ⟩]
      -- the sync has succeeded but counts as failed: what is written by now is durable, and the
      -- answer says that it is not, so the answer is true only if a call had failed before
      have h_ok := h_ws.ok hwritten
      constructor
      · intro h
        refine ⟨fun hd' => absurd hd' hd, fun _ _ _ => ?_⟩
        push Not at h
        obtain ⟨e, he, hw, hf⟩ := h
        rcases List.mem_append.mp he with he | he
        · exact ⟨e, he, hw, hf⟩
        · rcases List.mem_cons.mp he with rfl | he
          · exact absurd hw id
          · exact absurd hf (h_ok e he)
      · rintro ⟨-, h⟩ h_none
        obtain ⟨e, he, hw, hf⟩ := h hd halign hwritten
        exact h_none e (List.mem_append_left _ he) hw hf
    · intro hl
      have h_lock : (writtenDataOut T c d session).2.lockingStatus T = .lockedOther := by
        rw [h_ws.does.lockingStatus]
        exact hl
      exact absurd h_lock h_succ.1
  | @delivered session session' _ hses hd hdel hF =>
    obtain ⟨new, h_does, h_new, -⟩ := hdel.durable
    refine ⟨new, h_does, iff_of_true (answersDurably_of_silent fun e he => (h_new e he).1) ?_,
      fun _ e he => (h_new e he).2⟩
    -- nothing is answered before the end of the burst
    rw [hdel.dataOutDurable_iff hses]
    simp [hF]
  | @finished session session' c₁ hses hdel hF =>
    obtain ⟨new, h_does, h_new, h_iff⟩ := hdel.durable
    obtain ⟨ok, asked, h_close, -, h_asked⟩ := does_closeBatch (T := T) c₁ session' d.tag
    refine ⟨_, h_does.trans h_close, ?_, fun _ => ?_⟩
    · rw [answersDurably_good (fun e he => (h_new e he).1) h_asked, h_iff,
        hdel.dataOutDurable_iff hses]
      simp [hF]
    · refine List.forall_mem_append.mpr ⟨fun e he => (h_new e he).2, ?_⟩
      refine List.forall_mem_cons.mpr ⟨by simp, fun e he => ?_⟩
      obtain ⟨_, rfl⟩ := h_asked e he
      simp

/-! ### The command -/

variable {q : Pdu}

/-- The response to a command is durable when it is GOOD exactly for durable
data. -/
theorem answersDurably_status {es new : List Event} (hnew : ∀ e ∈ new, ¬ e.IsResponse)
    (sense : Bytes) (residual : Option (Residual × UInt32)) (ok : Bool) :
    AnswersDurably es (new ++ [.sent (statusPdu T q sense residual) ok]) ↔
      (sense = [] ↔ Durable (es ++ new)) := by
  rw [statusPdu, answersDurably_response hnew (by simp)]
  refine iff_congr ?_ Iff.rfl
  by_cases hs : sense = []
  · simp [ScsiResponsePdu.set, hs]
  · by_cases hc : sense = errorReservationConflict1 <;> simp [ScsiResponsePdu.set, hs, hc]

/-- A sync behind transfers that have all succeeded. It makes them durable
exactly when it succeeds itself. -/
theorem durable_sync_iff {s : Scsi β} {es ss : List Event} (hes : ∀ e ∈ es, ¬ e.Failed)
    (hquiet : ∀ e ∈ es, e ≠ .io .sync true) (h : s.Does (s.sync T).2 ss) :
    Durable (es ++ ss) ↔ SyncSucceeds T s := by
  cases hsync : (s.sync T).1.eqFalse with
  | true =>
    -- a sync that succeeds makes everything before it durable
    obtain ⟨h_succ, h_does⟩ := sync_of_eqFalse hsync
    rw [h.unique h_does, durable_append_sync]
    exact iff_of_true (fun e he _ => hes e he) h_succ
  | false =>
    -- one that fails, or is stopped, leaves no sync behind the transfers
    obtain ⟨h_fail, fs, h_does, h_fs⟩ := sync_of_not_eqFalse hsync
    rw [h.unique h_does]
    refine iff_of_false (not_durable_of_no_sync ?_) h_fail
    refine List.forall_mem_append.mpr ⟨hquiet, fun e he => ?_⟩
    rw [h_fs e he]
    simp

/-- A sync that is noted as successful was not stopped. -/
theorem unlocked_of_mem_sync {s : Scsi β} {ss : List Event} (h : s.Does (s.sync T).2 ss)
    (hmem : .io .sync true ∈ ss) : s.lockingStatus T ≠ .lockedOther := by
  intro hl
  rw [Scsi.sync_of_locked hl] at h
  rw [← (Scsi.Does.refl s).unique h] at hmem
  exact absurd hmem (by simp)

/-- **A WRITE command with FUA.** The cases are the ways its handling can end;
the one with a sync is that of complete data. -/
theorem WriteOutcome.durable (h : WriteOutcome T c q c') (hfua : q.fua = true) :
    ∃ new, c.scsi.Does c'.scsi new ∧ (AnswersDurably [] new ↔ CommandDurable T c q) ∧
      (c.scsi.lockingStatus T = .lockedOther → ∀ e ∈ new, e ≠ .io .sync true) := by
  obtain ⟨ts, h_ts⟩ :=
    Scsi.transfers_storeImmediate (T := T) (c.receive q).scsi q.lba q.nBlocks q.data
  have h_does : c.scsi.Does (storedImmediate T c q).2 ([.received q] ++ ts) :=
    (Scsi.does_note (.received q)).trans h_ts.does
  have h_quiet : ∀ e ∈ [.received q] ++ ts, ¬ e.IsResponse ∧ e ≠ .io .sync true :=
    List.forall_mem_cons.mpr
      ⟨quiet_received q, fun e he => quiet_of_transfer (h_ts.transfer e he)⟩
  have h_silent : ∀ e ∈ [.received q] ++ ts, ¬ e.IsResponse := fun e he => (h_quiet e he).1
  have h_none : ¬ Durable ([.received q] ++ ts) :=
    not_durable_of_no_sync fun e he => (h_quiet e he).2
  have h_unsynced (p : PduOut) (ok : Bool) : ∀ e ∈ ([.received q] ++ ts) ++ [.sent p ok],
      e ≠ .io .sync true :=
    List.forall_mem_append.mpr ⟨fun e he => (h_quiet e he).2, by simp⟩
  cases h with
  | refused hcheck =>
    refine ⟨_, (Scsi.does_note (.received q)).trans (Scsi.does_note _), ?_, by simp⟩
    rw [answersDurably_status (by simp [Event.IsResponse])]
    refine iff_of_true (iff_of_false (sense_ne_nil hcheck) ?_) fun h _ => ?_
    · exact not_durable_of_no_sync (by simp)
    · exact absurd (h.symm.trans hcheck) (by simp)
  | conflict hcheck hstored =>
    refine ⟨_, h_does.trans (Scsi.does_note _), ?_, fun _ => h_unsynced _ _⟩
    rw [answersDurably_status h_silent]
    refine iff_of_true (iff_of_false ?_ h_none) fun _ h => absurd (h.symm.trans hstored) (by simp)
    simp [errorReservationConflict1, fixedSense]
  | failed hcheck hstored =>
    refine ⟨_, h_does, iff_of_true (answersDurably_of_silent h_silent) fun _ h => ?_,
      fun _ e he => (h_quiet e he).2⟩
    exact absurd (h.symm.trans hstored) (by simp)
  | complete hcheck hstored hcomplete =>
    -- the whole range has come with the command: one sync follows when there is data
    have h_iff : CommandDurable T c q ↔
        q.data ≠ [] ∧ SyncSucceeds T (storedImmediate T c q).2 := by
      refine ⟨fun h => (h hcheck hstored).1 hcomplete, fun h _ _ => ⟨fun _ => h, fun hc => ?_⟩⟩
      exact absurd hcomplete hc
    rw [h_iff, hfua, Bool.true_and]
    by_cases hd : q.data = []
    · rw [decide_eq_false (not_not.mpr hd)]
      refine ⟨_, h_does.trans (Scsi.does_note _), ?_, fun _ => h_unsynced _ _⟩
      rw [answersDurably_status h_silent]
      exact iff_of_false (fun h => h_none (h.mp rfl)) fun h => absurd hd h.1
    · rw [decide_eq_true hd]
      obtain ⟨ss, h_sync, h_ss⟩ := Scsi.does_sync (T := T) (storedImmediate T c q).2
      refine ⟨_, (h_does.trans h_sync).trans (Scsi.does_note _), ?_, fun hl => ?_⟩
      · rw [answersDurably_status]
        · have h_ok : ∀ e ∈ [.received q] ++ ts, ¬ e.Failed :=
            List.forall_mem_cons.mpr ⟨id, h_ts.ok hstored⟩
          rw [List.nil_append, durable_sync_iff h_ok (fun e he => (h_quiet e he).2) h_sync]
          simp [hd]
        · refine List.forall_mem_append.mpr ⟨h_silent, fun e he => ?_⟩
          obtain ⟨_, rfl⟩ := h_ss e he
          exact id
      · refine List.forall_mem_append.mpr ⟨?_, by simp⟩
        refine List.forall_mem_append.mpr ⟨fun e he => (h_quiet e he).2, ?_⟩
        rintro e he rfl
        refine unlocked_of_mem_sync h_sync he ?_
        rw [h_does.lockingStatus]
        exact hl
  | mismatch hcheck hstored hcomplete hlen =>
    refine ⟨_, h_does.trans (Scsi.does_note _), ?_, fun _ => h_unsynced _ _⟩
    rw [answersDurably_status h_silent]
    refine iff_of_false (fun h => h_none (h.mp rfl)) fun h => hlen ?_
    exact (h hcheck hstored).2 hcomplete
  | transfer hcheck hstored hcomplete hlen =>
    -- the rest follows in Data-Outs, and the answer after them
    have h_open := does_openTransfer (T := T) { c with scsi := (storedImmediate T c q).2 } q
    refine ⟨_, h_does.trans h_open, iff_of_true (answersDurably_of_silent ?_) ?_, fun _ => ?_⟩
    · refine List.forall_mem_append.mpr ⟨h_silent, ?_⟩
      split <;> simp [Event.IsResponse]
    · exact fun _ _ => ⟨fun hc => absurd hc hcomplete, fun _ => hlen⟩
    · refine List.forall_mem_append.mpr ⟨fun e he => (h_quiet e he).2, ?_⟩
      split <;> simp

/-! ### SYNCHRONIZE CACHE -/

/-- SYNCHRONIZE CACHE is answered with GOOD whatever the sync does. -/
theorem serve_syncCache (fuel : ℕ) (c : Conn β) (hop : q.bhs.getOpcode = .scsiCmd)
    (hcdb : q.bhs.getCdb.opcode = .syncCache10) :
    serve T fuel c q = .ok (({ c with scsi := ((c.receive q).scsi.sync T).2 } : Conn β).emit T
      (statusPdu T q [] none)) := by
  have h_send : (c.receive q).scsi.send T fuel q.bhs.getLunNr q.bhs.getCdb q.data =
      .ok ({ type := .emptySense }, ((c.receive q).scsi.sync T).2) := by
    simp only [Scsi.send, hcdb, Scsi.syncCache]
  exact serve_of_status hop h_send rfl rfl (.inl rfl)

theorem syncCache_durable (fuel : ℕ) (c : Conn β) (hop : q.bhs.getOpcode = .scsiCmd)
    (hcdb : q.bhs.getCdb.opcode = .syncCache10) :
    ∃ c' new, serve T fuel c q = .ok c' ∧ c'.scsi.history = c.scsi.history ++ new ∧
      (AnswersDurably [] new ↔ SyncSucceeds T c.scsi) := by
  obtain ⟨ss, h_sync, h_ss⟩ := Scsi.does_sync (T := T) (c.receive q).scsi
  have h_does := (Scsi.does_note (s := c.scsi) (.received q)).trans h_sync
  refine ⟨_, _, serve_syncCache fuel c hop hcdb, (h_does.trans (Scsi.does_note _)).history, ?_⟩
  -- one PDU is sent, the response with status GOOD
  rw [answersDurably_status]
  · rw [List.nil_append, durable_sync_iff (by simp [Event.Failed]) (by simp) h_sync]
    simp [SyncSucceeds]
  · refine List.forall_mem_append.mpr ⟨by simp [Event.IsResponse], fun e he => ?_⟩
    obtain ⟨_, rfl⟩ := h_ss e he
    exact id

/-! ### The whole run -/

/-- What a command has done, one step on. -/
theorem since_of_does {new : List Event} (hn : n ≤ c.scsi.history.length)
    (h : c.scsi.Does c'.scsi new) : since n c' = since n c ++ new := by
  rw [since, h.history, List.drop_append_of_le_length hn]
  rfl

/-- Data-Outs make the trace longer. -/
theorem extends_run {fuel : ℕ} {dos : List Pdu} (hdos : ∀ d ∈ dos, d.bhs.getOpcode = .scsiDataOut)
    (h : Machine.run (serve T fuel) c dos = .ok c') : c.Extends c' := by
  refine Machine.run_induction (I := c.Extends) (fun s d s' h_ext hP h_step => ?_) dos c c'
    (.refl c)
    ((Machine.along_of_forall (P := fun _ _ => True) (fun _ _ => trivial) c dos).and_mem hdos) h
  obtain ⟨s'', h_serve, h_out⟩ := serve_dataOut (T := T) fuel s hP.2
  obtain rfl := Except.ok.inj (h_serve.symm.trans h_step)
  exact h_ext.trans h_out.extends

/-- **The Data-Outs of a command that started when the trace had the length
`n`.** By induction on them, since a later sync makes up for what was missing
before. -/
theorem run_durable_iff (fuel : ℕ) (hn : n ≤ c.scsi.history.length)
    (hlocked : c.scsi.lockingStatus T = .lockedOther → ∀ e ∈ since n c, e ≠ .io .sync true)
    {dos : List Pdu} (hdos : ∀ d ∈ dos, d.bhs.getOpcode = .scsiDataOut) :
    ∃ c' new, Machine.run (serve T fuel) c dos = .ok c' ∧ since n c' = since n c ++ new ∧
      (AnswersDurably (since n c) new ↔
        Machine.Along (serve T fuel) (DataOutDurable T n) c dos) := by
  refine Machine.trace_iff_along (since n)
    (I := fun c => n ≤ c.scsi.history.length ∧
      (c.scsi.lockingStatus T = .lockedOther → ∀ e ∈ since n c, e ≠ .io .sync true))
    (J := fun d => d.bhs.getOpcode = .scsiDataOut)
    answersDurably_nil answersDurably_append ?_ dos c ⟨hn, hlocked⟩ hdos
  -- one Data-Out: its own part of the trace, and the invariant behind it
  rintro c d ⟨h_n, h_locked⟩ hop
  obtain ⟨c', h_serve, h_out⟩ := serve_dataOut (T := T) fuel c hop
  obtain ⟨new, h_does, h_iff, h_new⟩ := h_out.durable h_locked
  have h_since := since_of_does h_n h_does
  refine ⟨c', new, h_serve, h_since, h_iff, ?_, fun hl => ?_⟩
  · rw [h_does.history, List.length_append]
    omega
  · rw [h_does.lockingStatus] at hl
    rw [h_since]
    exact List.forall_mem_append.mpr ⟨h_locked hl, h_new hl⟩

/-- **Durability of SYNCHRONIZE CACHE and FUA.** A SYNCHRONIZE CACHE is answered
durably exactly when its sync succeeds. A WRITE with FUA and any Data-Outs for
it are answered durably exactly when the command is, and every Data-Out along
the run. -/
theorem durability_iff (fuel : ℕ) (c : Conn β) (hop : q.bhs.getOpcode = .scsiCmd) :
    (q.bhs.getCdb.opcode = .syncCache10 → ∃ c' evs, serve T fuel c q = .ok c' ∧
      c'.scsi.history = c.scsi.history ++ evs ∧
        (AnswersDurably [] evs ↔ SyncSucceeds T c.scsi)) ∧
    (q.bhs.getCdb.opcode.isWrite = true → q.fua = true → ∀ dos,
      (∀ d ∈ dos, d.bhs.getOpcode = .scsiDataOut ∧ d.tag = commandTag T c q) →
      ∃ c₁ c' evs, serve T fuel c q = .ok c₁ ∧ Machine.run (serve T fuel) c₁ dos = .ok c' ∧
        c'.scsi.history = c.scsi.history ++ evs ∧
          (AnswersDurably [] evs ↔ CommandDurable T c q ∧
            Machine.Along (serve T fuel) (DataOutDurable T c.scsi.history.length) c₁ dos)) := by
  refine ⟨syncCache_durable fuel c hop, fun hwrite hfua dos hdos => ?_⟩
  obtain ⟨c₁, h_serve, h_out⟩ := serve_write (T := T) fuel c ⟨hop, hwrite⟩
  obtain ⟨es, h_does, h_command, h_locked⟩ := h_out.durable hfua
  -- the command first; its Data-Outs are judged by the trace since it has arrived
  have h_since : since c.scsi.history.length c₁ = es := by
    rw [since, h_does.history, List.drop_left]
  obtain ⟨c', fs, h_run, h_all, h_dataOut⟩ := run_durable_iff (T := T) (c := c₁)
    (n := c.scsi.history.length) fuel
    (by rw [h_does.history, List.length_append]; omega)
    (by rw [h_does.lockingStatus, h_since]; exact h_locked) fun d hd => (hdos d hd).1
  obtain ⟨evs, h_evs⟩ :=
    (h_out.extends.trans (extends_run (fun d hd => (hdos d hd).1) h_run)).history_le
  have h_eq : evs = es ++ fs := by
    rw [← h_since, ← h_all, since, ← h_evs, List.drop_left]
  refine ⟨c₁, c', evs, h_serve, h_run, h_evs.symm, ?_⟩
  rw [h_eq, answersDurably_append, h_command, List.nil_append, ← h_since, h_dataOut]

/-- WRITE(10) of one block to address 2 with FUA and immediate data. -/
def Sample.fuaImmediate : Pdu := Sample.command 5 16 (Sample.cdb10 0x2a 8 2 1) (Sample.block 1)

/-- WRITE(10) of one block to address 2 with FUA, whose data follows. -/
def Sample.fuaBlock : Pdu := Sample.command 5 16 (Sample.cdb10 0x2a 8 2 1) [] Pdu.nil_lt

/-- Immediate data that is written and synced is answered durably. -/
theorem durability_immediate :
    ∃ c₁ c' evs, serve (Sample.target 8) 0 (Sample.conn 8 []) Sample.fuaImmediate = .ok c₁ ∧
      Machine.run (serve (Sample.target 8) 0) c₁ [] = .ok c' ∧
      c'.scsi.history = (Sample.conn 8 []).scsi.history ++ evs ∧ AnswersDurably [] evs := by
  obtain ⟨c₁, c', evs, h_serve, h_run, h_evs, h_iff⟩ :=
    (durability_iff (T := Sample.target 8) (q := Sample.fuaImmediate) 0 (Sample.conn 8 [])
      (by decide +kernel)).2 (by decide +kernel) (by decide +kernel) [] (by simp)
  refine ⟨c₁, c', evs, h_serve, h_run, h_evs, h_iff.mpr ⟨fun _ _ => ⟨fun _ => ?_, fun h => ?_⟩,
    trivial⟩⟩
  · exact ⟨by decide +kernel, by decide +kernel⟩
  · exact absurd (show Complete (Sample.target 8) Sample.fuaImmediate by decide +kernel) h

/-- SYNCHRONIZE CACHE is answered with GOOD when the sync fails, and a WRITE
with FUA whose data is written and synced is answered with an error. -/
theorem durability_fails :
    (∃ c', serve (Sample.target 8) 0 (Sample.conn 8 [false])
        (Sample.command 5 0 (Sample.cdb10 0x35 0 0 0) []) = .ok c' ∧
      ¬ AnswersDurably [] c'.scsi.history) ∧
    ∃ c', Machine.run (serve (Sample.target 8) 0) (Sample.conn 8 [])
        [Sample.fuaBlock, Sample.dataOut 5 0 true (Sample.block 1)] = .ok c' ∧
      ¬ AnswersDurably [] c'.scsi.history := by
  constructor
  · -- SYNCHRONIZE CACHE ignores what the sync returns
    have h_eval : (serve (Sample.target 8) 0 (Sample.conn 8 [false])
        (Sample.command 5 0 (Sample.cdb10 0x35 0 0 0) [])).toOption.any
        (fun c' => decide (c'.scsi.history =
          [.received (Sample.command 5 0 (Sample.cdb10 0x35 0 0 0) []), .io .sync false,
            .sent (statusPdu (Sample.target 8) (Sample.command 5 0 (Sample.cdb10 0x35 0 0 0) [])
              [] none) true])) = true := by decide +kernel
    obtain ⟨c', h_serve, h_hist⟩ := Machine.exists_ok_of_any h_eval
    refine ⟨c', h_serve, fun h => ?_⟩
    have h_good := (h [_, _] _ _ [] h_hist).mp (by simp [ScsiResponsePdu.set])
    exact not_durable_of_no_sync (by simp) h_good
  · -- the inverted test takes the successful sync for a failure
    have h_eval : (Machine.run (serve (Sample.target 8) 0) (Sample.conn 8 [])
        [Sample.fuaBlock, Sample.dataOut 5 0 true (Sample.block 1)]).toOption.any
        (fun c' => decide (c'.scsi.history =
          [.received Sample.fuaBlock,
            .sent (.r2t (.set (Sample.target 8) Sample.fuaBlock.bhs 5 0 16)) true,
            .received (Sample.dataOut 5 0 true (Sample.block 1)),
            .io (.write 2 1 (Sample.block 1)) true, .io .sync true,
            .sent (ioErrorPdu (Sample.target 8) (Sample.dataOut 5 0 true (Sample.block 1)))
              true])) = true := by decide +kernel
    obtain ⟨c', h_run, h_hist⟩ := Machine.exists_ok_of_any h_eval
    refine ⟨c', h_run, fun h => ?_⟩
    have h_durable : Durable ([.received Sample.fuaBlock,
        .sent (.r2t (.set (Sample.target 8) Sample.fuaBlock.bhs 5 0 16)) true,
        .received (Sample.dataOut 5 0 true (Sample.block 1)),
        .io (.write 2 1 (Sample.block 1)) true] ++ [.io .sync true]) := by
      rw [durable_append_sync]
      simp [Event.Failed, Event.IsWrite]
    have h_bad := (h [_, _, _, _, _] _ _ [] h_hist).mpr h_durable
    exact absurd h_bad (by simp [ScsiResponsePdu.set, errorReadError, fixedSense])

end IscsiTarget
