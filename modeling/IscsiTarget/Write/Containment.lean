import IscsiTarget.Lib.Run
import IscsiTarget.Model.Sample
import IscsiTarget.Write.Task

/-!
# Where Data-Outs write

The range of a WRITE is checked once, on the command. The blocks a Data-Out goes
to are computed from the offset in its own header and the length of its data, and
nothing compares them with that range. `touches_taskCall_iff` is the arithmetic:
the call stays inside the range of the command exactly when the Data-Out does
(`Fits`), wrap-around at `2 ^ 64` included. `containment_iff` is the statement
for a whole transfer.
-/

namespace IscsiTarget

variable {β : Type} (T : Target β)

/-- The block is one of the command's. -/
def InCommand (q : Pdu) (b : ℕ) : Prop := q.lba.toNat ≤ b ∧ b < q.lba.toNat + q.nBlocks.toNat

/-- A Data-Out that gets as far as the backend ends inside the buffer of the
command. -/
def Fits (q : Pdu) (c : Conn β) (d : Pdu) : Prop :=
  c.ses.getR2tSesion d.tag ≠ none → d.data ≠ [] → d.Aligned T.blockSize →
    c.scsi.lockingStatus T ≠ .lockedOther →
      d.offset / T.blockSize + d.data.length / T.blockSize ≤ q.nBlocks.toNat

/-- The R2T session, if there is one, writes where the command says. -/
def WritesFor (q : Pdu) (tag : UInt32) (c : Conn β) : Prop :=
  ∀ session, c.ses.getR2tSesion tag = some session →
    session.bufferLba = q.lba ∧ session.isWriteSame = false

variable {T}

/-- **The call of a Data-Out stays inside the command** when the Data-Out does.
The offset and the length count from the address of the command on. -/
theorem touches_taskCall_iff {q d : Pdu} {session : R2tSession}
    (hend : q.lba.toNat + q.nBlocks.toNat < 2 ^ 64) (hlba : session.bufferLba = q.lba)
    (hd : d.data ≠ []) (halign : d.Aligned T.blockSize) (ok : Bool) :
    (∀ b, (Event.io (taskCall T session d) ok).Touches b → InCommand q b) ↔
      d.offset / T.blockSize + d.data.length / T.blockSize ≤ q.nBlocks.toNat := by
  have h_pos : 0 < d.data.length / T.blockSize :=
    Nat.div_pos (Nat.le_of_dvd (List.length_pos_of_ne_nil hd)
      (Nat.dvd_of_mod_eq_zero halign.2)) T.blockSize_pos
  have h_len : d.data.length / T.blockSize ≤ d.data.length := Nat.div_le_self _ _
  have h_data := d.data_lt
  have h_off : d.offset / T.blockSize ≤ d.offset := Nat.div_le_self _ _
  have h_offset : d.offset < 2 ^ 32 := d.bhs.getBufferOffset.toNat_lt
  have h_lba := q.lba.toNat_lt
  have h_n : (UInt32.ofNat (d.data.length / T.blockSize)).toNat = d.data.length / T.blockSize :=
    toNat_ofNat_32 (by omega)
  have h_block : (q.lba + UInt64.ofNat (d.offset / T.blockSize)).toNat =
      (q.lba.toNat + d.offset / T.blockSize) % 2 ^ 64 := by
    rw [UInt64.toNat_add, UInt64.toNat_ofNat', Nat.mod_eq_of_lt (a := d.offset / T.blockSize)
      (by omega)]
  unfold taskCall InCommand
  simp only [Scsi.touches_writeCall_iff, hlba, h_n, h_block]
  generalize d.offset / T.blockSize = o at *
  generalize d.data.length / T.blockSize = m at *
  constructor
  · -- the first block and the last one are inside, and nothing has wrapped around then
    intro h
    have h_first := h ((q.lba.toNat + o) % 2 ^ 64) (by omega)
    have h_last := h ((q.lba.toNat + o) % 2 ^ 64 + m - 1) (by omega)
    omega
  · intro h b hb
    omega

/-- The events that are not backend calls, and the syncs, touch nothing. -/
theorem not_touches_received (q : Pdu) (b : ℕ) : ¬ (Event.received q).Touches b := id

theorem not_touches_sent (p : PduOut) (ok : Bool) (b : ℕ) : ¬ (Event.sent p ok).Touches b := id

theorem not_touches_sync (ok : Bool) (b : ℕ) : ¬ (Event.io .sync ok).Touches b := id

variable {q d : Pdu} {session session' : R2tSession} {evs : List Event}

/-- The data that is taken, and where it goes. -/
theorem Take.touches_iff (h : Take T d session evs session')
    (hend : q.lba.toNat + q.nBlocks.toNat < 2 ^ 64) (hlba : session.bufferLba = q.lba) :
    (∀ e ∈ evs, ∀ b, e.Touches b → InCommand q b) ↔ (d.data ≠ [] → d.Aligned T.blockSize →
      d.offset / T.blockSize + d.data.length / T.blockSize ≤ q.nBlocks.toNat) := by
  cases h with
  | empty hd => simp [hd]
  | written hd halign hfua =>
    simp [touches_taskCall_iff hend hlba hd halign, hd, halign]
  | unsynced hd halign hfua =>
    simp [touches_taskCall_iff hend hlba hd halign, hd, halign, not_touches_sync]

/-- **Where one Data-Out of a task writes.** One that is refused, or stopped by
a reservation, writes nowhere, and the others write what they bring. -/
theorem TaskStep.touches_iff {locked takes : Prop} {after : Option R2tSession}
    (h : TaskStep T locked takes d session evs after)
    (hend : q.lba.toNat + q.nBlocks.toNat < 2 ^ 64) (hlba : session.bufferLba = q.lba) :
    (∀ e ∈ evs, ∀ b, e.Touches b → InCommand q b) ↔
      (d.data ≠ [] → d.Aligned T.blockSize → ¬ locked →
        d.offset / T.blockSize + d.data.length / T.blockSize ≤ q.nBlocks.toNat) := by
  -- one case for each thing a Data-Out can come to; the events around the call touch nothing
  cases h with
  | refused hbad =>
    simp only [List.forall_mem_singleton, not_touches_received, false_imp_iff, implies_true,
      true_iff]
    intro hd halign
    rcases hbad with ⟨hd', -⟩ | ⟨-, halign'⟩
    · exact absurd hd' hd
    · exact absurd halign halign'
  | reserved hd halign hl ok => simp [not_touches_received, not_touches_sent, hl]
  | writeFailed hd halign hl ok =>
    simp [touches_taskCall_iff hend hlba hd halign, not_touches_received, not_touches_sent, hd,
      halign, hl]
  | synced hd halign hl hfua ok =>
    simp [touches_taskCall_iff hend hlba hd halign, not_touches_received, not_touches_sent,
      not_touches_sync, hd, halign, hl]
  | taken ht hd hl htake hF =>
    simp only [List.forall_mem_cons, not_touches_received, false_imp_iff, implies_true, true_and,
      htake.touches_iff hend hlba, hl, not_false_eq_true, forall_const]
  | ended ht hl htake hF hleft ok =>
    simp only [List.forall_mem_cons, List.forall_mem_append, not_touches_received,
      List.not_mem_nil, not_touches_sent, false_imp_iff, implies_true, true_and, and_true,
      htake.touches_iff hend hlba]
    exact forall_congr' fun hd => by simp [hl hd]
  | continued ht hl htake hF hleft asked hasked ok =>
    have h_asked : ∀ e ∈ asked, ∀ b, e.Touches b → InCommand q b := by
      intro e he b hb
      obtain ⟨ok, rfl⟩ := hasked e he
      exact absurd hb (not_touches_sent _ _ _)
    simp only [List.forall_mem_cons, List.forall_mem_append, not_touches_received,
      not_touches_sent, false_imp_iff, implies_true, true_and,
      htake.touches_iff hend hlba]
    exact (and_iff_left h_asked).trans (forall_congr' fun hd => by simp [hl hd])

/-! ### Transfers -/

/-- A step of the transfer: where it writes, and that the R2T session keeps
writing for the command. -/
theorem containment_step (fuel : ℕ) {q d : Pdu} (hend : q.lba.toNat + q.nBlocks.toNat < 2 ^ 64)
    (hop : d.bhs.getOpcode = .scsiDataOut) {c : Conn β} (hI : WritesFor q d.tag c) :
    ∃ c' evs, serve T fuel c d = .ok c' ∧ c'.scsi.history = c.scsi.history ++ evs ∧
      ((∀ e ∈ evs, ∀ b, e.Touches b → InCommand q b) ↔ Fits T q c d) ∧
      WritesFor q d.tag c' := by
  obtain ⟨c', h_serve, h_out⟩ := serve_dataOut (T := T) fuel c hop
  cases hses : c.ses.getR2tSesion d.tag with
  | none =>
    -- the Data-Out leaves nothing but its trace
    obtain rfl := h_out.eq_receive hses
    refine ⟨_, [.received d], h_serve, rfl, ?_, hI⟩
    simp [Fits, hses, not_touches_received]
  | some session =>
    obtain ⟨h_lba, h_same⟩ := hI session hses
    obtain ⟨evs, h_does, h_step⟩ := h_out.taskStep hses h_same
    refine ⟨c', evs, h_serve, h_does.history, ?_, ?_⟩
    · rw [h_step.touches_iff hend h_lba]
      unfold Fits
      rw [hses]
      simp
    · intro rs hrs
      rw [hrs] at h_step
      rcases h_step.eq_or with rfl | rfl
      · exact ⟨h_lba, h_same⟩
      · exact ⟨h_lba, h_same⟩

/-- **Containment.** A WRITE command has opened an R2T session. The writes and
trims made for the Data-Outs under its tag stay inside the range of the command
exactly when every Data-Out that gets as far as the backend fits. -/
theorem containment_iff (fuel : ℕ) {c c₁ : Conn β} {q : Pdu} (hq : q.IsWrite)
    (hfresh : c.ses.getR2tSesion (commandTag T c q) = none)
    (hserve : serve T fuel c q = .ok c₁)
    (hopen : c₁.ses.getR2tSesion (commandTag T c q) ≠ none) {dos : List Pdu}
    (hdos : ∀ d ∈ dos, d.bhs.getOpcode = .scsiDataOut ∧ d.tag = commandTag T c q) :
    ∃ c' evs, Machine.run (serve T fuel) c₁ dos = .ok c' ∧
      c'.scsi.history = c₁.scsi.history ++ evs ∧
      ((∀ e ∈ evs, ∀ b, e.Touches b → InCommand q b) ↔
        Machine.Along (serve T fuel) (Fits T q) c₁ dos) := by
  obtain ⟨h_check, h_task⟩ := opened_of_serve hq hfresh hserve hopen
  have h_end := Scsi.lt_of_validateRequest T c.scsi h_check
  refine Machine.forall_events_iff_along (fun c => c.scsi.history)
    (I := WritesFor q (commandTag T c q))
    (J := fun d => d.bhs.getOpcode = .scsiDataOut ∧ d.tag = commandTag T c q)
    ?_ dos c₁ ?_ hdos
  · -- the step: what the session says of the command stays as it was opened
    rintro s d hI ⟨hop, htag⟩
    rw [← htag] at hI ⊢
    exact containment_step fuel h_end hop hI
  · intro session hs
    rw [h_task] at hs
    obtain rfl := Option.some.inj hs
    exact ⟨taskOf_bufferLba q, taskOf_isWriteSame q⟩

/-- A Data-Out for the second of the two blocks stays inside. It ends the burst
with the first block missing, which does not matter here. -/
theorem containment_twoBlocks :
    ∃ c₁ c' evs, serve (Sample.target 8) 0 (Sample.conn 8 []) Sample.twoBlocks = .ok c₁ ∧
      Machine.run (serve (Sample.target 8) 0) c₁ [Sample.dataOut 5 16 true (Sample.block 9)] =
        .ok c' ∧
      c'.scsi.history = c₁.scsi.history ++ evs ∧
      ∀ e ∈ evs, ∀ b, e.Touches b → InCommand Sample.twoBlocks b := by
  have h_eval : (serve (Sample.target 8) 0 (Sample.conn 8 []) Sample.twoBlocks).toOption.any
      (fun c => decide (c.ses.getR2tSesion (commandTag (Sample.target 8) (Sample.conn 8 [])
        Sample.twoBlocks) ≠ none)) = true := by decide +kernel
  obtain ⟨c₁, h_serve, h_open⟩ := Machine.exists_ok_of_any h_eval
  have h_write : Sample.twoBlocks.IsWrite := ⟨by decide +kernel, by decide +kernel⟩
  have h_dos : ∀ d ∈ [Sample.dataOut 5 16 true (Sample.block 9)],
      d.bhs.getOpcode = .scsiDataOut ∧
        d.tag = commandTag (Sample.target 8) (Sample.conn 8 []) Sample.twoBlocks := by
    intro d hd
    obtain rfl := List.mem_singleton.mp hd
    exact ⟨by decide +kernel, by decide +kernel⟩
  obtain ⟨c', evs, h_run, h_evs, h_iff⟩ :=
    containment_iff 0 h_write (by decide +kernel) h_serve h_open h_dos
  refine ⟨c₁, c', evs, h_serve, h_run, h_evs, h_iff.mpr ⟨?_, fun s' _ => trivial⟩⟩
  intro _ _ _ _
  decide +kernel

/-- A Data-Out for a third block, of a command for two, is written behind them.
Block 4 belongs to nobody who has asked for anything. -/
theorem containment_third_block :
    ∃ c₁ c', serve (Sample.target 8) 0 (Sample.conn 8 []) Sample.twoBlocks = .ok c₁ ∧
      c₁.ses.getR2tSesion (commandTag (Sample.target 8) (Sample.conn 8 []) Sample.twoBlocks) =
        some (taskOf (Sample.target 8) Sample.twoBlocks) ∧
      Machine.run (serve (Sample.target 8) 0) c₁ [Sample.dataOut 5 32 true (Sample.block 9)] =
        .ok c' ∧
      ∃ e ∈ c'.scsi.history.drop c₁.scsi.history.length,
        e.Touches 4 ∧ ¬ InCommand Sample.twoBlocks 4 := by
  have h_eval : (serve (Sample.target 8) 0 (Sample.conn 8 []) Sample.twoBlocks).toOption.any
      (fun c => decide (c.ses.getR2tSesion (commandTag (Sample.target 8) (Sample.conn 8 [])
          Sample.twoBlocks) = some (taskOf (Sample.target 8) Sample.twoBlocks) ∧
        (Machine.run (serve (Sample.target 8) 0) c
          [Sample.dataOut 5 32 true (Sample.block 9)]).toOption.any (fun c' => decide
            (.io (.write 4 1 (Sample.block 9)) true ∈
              c'.scsi.history.drop c.scsi.history.length)) = true)) = true := by
    decide +kernel
  obtain ⟨c₁, h_serve, h_open, h_eval'⟩ := Machine.exists_ok_of_any h_eval
  obtain ⟨c', h_run, h_mem⟩ := Machine.exists_ok_of_any h_eval'
  refine ⟨c₁, c', h_serve, h_open, h_run, _, h_mem, ?_, ?_⟩
  · exact ⟨by decide, by decide⟩
  · rintro ⟨-, h⟩
    exact absurd h (by decide +kernel)

end IscsiTarget
