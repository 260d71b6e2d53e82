import IscsiTarget.Lib.Run
import IscsiTarget.Model.Sample
import IscsiTarget.Write.Command

/-!
# Whose R2T session it is

A WRITE that is answered with an R2T registers an R2T session under the tag the R2T
carries. `init_r2t_session` keeps an entry that is there already, and entries are only
removed by the Data-Out that completes them: a task that is aborted, or whose
Data-Outs are refused, leaves its entry behind. `describes_iff` says for one command
when the entry is its own, and `identity_iff` for every command of every run.
-/

namespace IscsiTarget

variable {β : Type} (T : Target β)

/-- The command is answered with an R2T: it is accepted, what came with it is
stored, data is missing, and there is a tag to ask for it with. -/
structure AsksForData (c : Conn β) (q : Pdu) : Prop where
  write : q.IsWrite
  accepted : writeCheck T c q = none
  stored : (storedImmediate T c q).1 = .ok
  incomplete : ¬ Complete T q
  expDatLen : nBytesOf T q = q.bhs.getExpDatLen.toNat
  chosen : (chooseTtt T (storedImmediate T c q).2.history q.bhs.getItasktag).2 = true

/-- When a WRITE is answered with an R2T, the R2T session under the tag of the
R2T is the one computed for the command. -/
def Describes (fuel : ℕ) (c : Conn β) (q : Pdu) : Prop :=
  q.IsWrite → ∀ c', serve T fuel c q = .ok c' →
    ∀ p ok, .sent (.r2t p) ok ∈ c'.scsi.history.drop c.scsi.history.length →
      c'.ses.getR2tSesion p.ttt = some (taskOf T q)

/-- Under the tag of a WRITE that is going to be answered with an R2T there is
no R2T session, or one that is the same. -/
def TagFree (c : Conn β) (q : Pdu) : Prop :=
  AsksForData T c q →
    c.ses.getR2tSesion (commandTag T c q) = none ∨
      c.ses.getR2tSesion (commandTag T c q) = some (taskOf T q)

variable {T}

/-- An entry that is there is kept, and a free tag gets the new one. -/
theorem getR2tSesion_openTransfer_iff (c : Conn β) (q : Pdu) :
    (openTransfer T { c with scsi := (storedImmediate T c q).2 } q).ses.getR2tSesion
        (commandTag T c q) = some (taskOf T q) ↔
      c.ses.getR2tSesion (commandTag T c q) = none ∨
        c.ses.getR2tSesion (commandTag T c q) = some (taskOf T q) := by
  cases hold : c.ses.getR2tSesion (commandTag T c q) with
  | none => simp [getR2tSesion_openTransfer hold]
  | some old =>
    rw [openTransfer_ses, Session.getR2tSesion_initR2tSession_of_some _ hold]
    simp

/-- The events that are not R2Ts. -/
def NoR2t (es : List Event) : Prop := ∀ p ok, .sent (.r2t p) ok ∉ es

theorem noR2t_received (q : Pdu) {es : List Event} (h : ∀ e ∈ es, e.IsTransfer) :
    NoR2t (.received q :: es) := by
  intro p ok hmem
  rcases List.mem_cons.mp hmem with heq | hmem
  · exact absurd heq (by simp)
  · exact h _ hmem

theorem NoR2t.append_response {es : List Event} (h : NoR2t es) (p : ScsiResponsePdu) (ok : Bool) :
    NoR2t (es ++ [.sent (.scsiResponse p) ok]) := by
  intro p' ok' hmem
  rcases List.mem_append.mp hmem with hmem | hmem
  · exact h p' ok' hmem
  · simp at hmem

/-- A command that asks for data ends in a transfer. -/
theorem eq_openTransfer {c c' : Conn β} {q : Pdu} (h : WriteOutcome T c q c')
    (hasks : AsksForData T c q) :
    c' = openTransfer T { c with scsi := (storedImmediate T c q).2 } q := by
  cases h with
  | refused hcheck => exact absurd (hasks.accepted.symm.trans hcheck) (by simp)
  | conflict hcheck hstored => exact absurd (hasks.stored.symm.trans hstored) (by simp)
  | failed hcheck hstored => exact absurd (hasks.stored.symm.trans hstored) (by simp)
  | complete hcheck hstored hcomplete => exact absurd hcomplete hasks.incomplete
  | mismatch hcheck hstored hcomplete hlen => exact absurd hasks.expDatLen hlen
  | transfer hcheck hstored hcomplete hlen => rfl

/-- The immediate data leaves no R2T in the trace. -/
theorem noR2t_storedImmediate (c : Conn β) (q : Pdu) :
    ∃ es, c.scsi.Does (storedImmediate T c q).2 es ∧ NoR2t es := by
  obtain ⟨es, ht⟩ :=
    Scsi.transfers_storeImmediate (T := T) (c.receive q).scsi q.lba q.nBlocks q.data
  exact ⟨_, (Scsi.does_note (.received q)).trans ht.does, noR2t_received q ht.transfer⟩

/-- A command that does not ask for data sends no R2T. The other ways its
handling ends send a status, or nothing. -/
theorem noR2t_of_not_asks {c c' : Conn β} {q : Pdu} (hq : q.IsWrite) (h : WriteOutcome T c q c')
    (hasks : ¬ AsksForData T c q) : ∃ es, c.scsi.Does c'.scsi es ∧ NoR2t es := by
  obtain ⟨es, h_does, h_quiet⟩ := noR2t_storedImmediate (T := T) c q
  -- each way to answer but the last sends a SCSI Response or nothing
  cases h with
  | refused hcheck =>
    exact ⟨_, (Scsi.does_note (.received q)).trans (Scsi.does_note _),
      (noR2t_received q (List.forall_mem_nil _)).append_response _ _⟩
  | conflict hcheck hstored =>
    exact ⟨_, h_does.trans (Scsi.does_note _), h_quiet.append_response _ _⟩
  | failed hcheck hstored => exact ⟨_, h_does, h_quiet⟩
  | complete hcheck hstored hcomplete =>
    obtain ⟨fs, h_sync, h_fs⟩ := does_syncedIf (T := T) (q.fua && decide (q.data ≠ []))
      (storedImmediate T c q).2
    refine ⟨_, (h_does.trans h_sync).trans (Scsi.does_note _), .append_response ?_ _ _⟩
    intro p ok hmem
    rcases List.mem_append.mp hmem with hmem | hmem
    · exact h_quiet p ok hmem
    · obtain ⟨_, heq⟩ := h_fs _ hmem
      exact absurd heq (by simp)
  | mismatch hcheck hstored hcomplete hlen =>
    exact ⟨_, h_does.trans (Scsi.does_note _), h_quiet.append_response _ _⟩
  | transfer hcheck hstored hcomplete hlen =>
    -- the last one would ask, but the random tag could not be had
    have h_chosen : ¬ (chooseTtt T (storedImmediate T c q).2.history q.bhs.getItasktag).2 = true :=
      fun h => hasks ⟨hq, hcheck, hstored, hcomplete, hlen, h⟩
    have h_open := does_openTransfer (T := T) { c with scsi := (storedImmediate T c q).2 } q
    rw [if_neg h_chosen] at h_open
    refine ⟨_, h_does.trans h_open, ?_⟩
    rw [List.append_nil]
    exact h_quiet

/-- The R2T of a command that asks for data carries its tag. -/
theorem r2t_of_asks {c : Conn β} {q : Pdu} (hasks : AsksForData T c q) :
    ∃ es p ok, c.scsi.Does
        (openTransfer T { c with scsi := (storedImmediate T c q).2 } q).scsi
        (es ++ [.sent (.r2t p) ok]) ∧ NoR2t es ∧ p.ttt = commandTag T c q := by
  obtain ⟨es, h_does, h_quiet⟩ := noR2t_storedImmediate (T := T) c q
  have h_open := does_openTransfer (T := T) { c with scsi := (storedImmediate T c q).2 } q
  rw [if_pos hasks.chosen] at h_open
  exact ⟨es, _, _, h_does.trans h_open, h_quiet, rfl⟩

/-- **The entry of one command.** It describes the command exactly when there
was none under the tag, since an old entry is kept. -/
theorem describes_iff (fuel : ℕ) (c : Conn β) (q : Pdu) : Describes T fuel c q ↔ TagFree T c q := by
  constructor
  · intro h hasks
    obtain ⟨c', h_serve, h_out⟩ := serve_write (T := T) fuel c hasks.write
    obtain rfl := eq_openTransfer h_out hasks
    obtain ⟨es, p, ok, h_does, -, h_tag⟩ := r2t_of_asks hasks
    have h_entry := h hasks.write _ h_serve p ok (by rw [h_does.history, List.drop_left]; simp)
    rw [h_tag] at h_entry
    exact (getR2tSesion_openTransfer_iff c q).mp h_entry
  · intro h hq c' h_serve p ok h_mem
    obtain ⟨c'', h_serve', h_out⟩ := serve_write (T := T) fuel c hq
    obtain rfl := Except.ok.inj (h_serve'.symm.trans h_serve)
    by_cases hasks : AsksForData T c q
    · obtain rfl := eq_openTransfer h_out hasks
      obtain ⟨es, p', ok', h_does, h_quiet, h_tag⟩ := r2t_of_asks hasks
      rw [h_does.history, List.drop_left] at h_mem
      -- the one R2T there is carries the tag of the command
      rcases List.mem_append.mp h_mem with h_mem | h_mem
      · exact absurd h_mem (h_quiet p ok)
      · simp only [List.mem_singleton, Event.sent.injEq, PduOut.r2t.injEq] at h_mem
        rw [h_mem.1, h_tag]
        exact (getR2tSesion_openTransfer_iff c q).mpr (h hasks)
    · obtain ⟨es, h_does, h_quiet⟩ := noR2t_of_not_asks hq h_out hasks
      rw [h_does.history, List.drop_left] at h_mem
      exact absurd h_mem (h_quiet p ok)

/-- **R2T session identity.** Along every run, from any state of the connection,
the R2T sessions describe the commands they were announced for exactly when
every command that is answered with an R2T finds its tag free, or taken by an
entry that is the same. -/
theorem identity_iff (fuel : ℕ) (c : Conn β) (pdus : List Pdu) :
    Machine.Along (serve T fuel) (Describes T fuel) c pdus ↔
      Machine.Along (serve T fuel) (TagFree T) c pdus :=
  Machine.along_congr (describes_iff fuel) c pdus

/-- ABORT TASK. -/
def Sample.abortTask : Pdu :=
  { bhs := Sample.header 0x02 0x81 6 0 (Vector.replicate 16 0), data := [],
    data_lt := Pdu.nil_lt }

/-- WRITE(10) of one block to address 4, under the tag of `Sample.twoBlocks`. -/
def Sample.oneBlock : Pdu := Sample.command 5 16 (Sample.cdb10 0x2a 0 4 1) [] Pdu.nil_lt

/-- A WRITE is answered with an R2T and aborted; the next one under its tag gets
an R2T too, and the R2T session of the first. -/
theorem identity_fails_after_abort :
    ∃ c c' p ok, Machine.run (serve (Sample.target 8) 0) (Sample.conn 8 [])
        [Sample.twoBlocks, Sample.abortTask] = .ok c ∧
      Sample.oneBlock.IsWrite ∧ serve (Sample.target 8) 0 c Sample.oneBlock = .ok c' ∧
      .sent (.r2t p) ok ∈ c'.scsi.history.drop c.scsi.history.length ∧
      c'.ses.getR2tSesion p.ttt = some (taskOf (Sample.target 8) Sample.twoBlocks) ∧
      c'.ses.getR2tSesion p.ttt ≠ some (taskOf (Sample.target 8) Sample.oneBlock) := by
  let p : R2tPdu := .set (Sample.target 8) Sample.oneBlock.bhs 5 0 16
  have h_eval : (Machine.run (serve (Sample.target 8) 0) (Sample.conn 8 [])
      [Sample.twoBlocks, Sample.abortTask]).toOption.any (fun c => decide
        ((serve (Sample.target 8) 0 c Sample.oneBlock).toOption.any (fun c' => decide
          (.sent (.r2t p) true ∈ c'.scsi.history.drop c.scsi.history.length ∧
            c'.ses.getR2tSesion p.ttt = some (taskOf (Sample.target 8) Sample.twoBlocks) ∧
            c'.ses.getR2tSesion p.ttt ≠ some (taskOf (Sample.target 8) Sample.oneBlock))) =
        true)) = true := by decide +kernel
  obtain ⟨c, h_run, h_eval'⟩ := Machine.exists_ok_of_any h_eval
  obtain ⟨c', h_serve, h_mem, h_old, h_new⟩ := Machine.exists_ok_of_any h_eval'
  exact ⟨c, c', p, true, h_run, ⟨by decide +kernel, by decide +kernel⟩, h_serve, h_mem, h_old,
    h_new⟩

end IscsiTarget
