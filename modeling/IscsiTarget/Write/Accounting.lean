import IscsiTarget.Lib.Run
import IscsiTarget.Model.Sample
import IscsiTarget.Write.Task

/-!
# The counters of an R2T session

An R2T session counts in two numbers of 32 bits: `bytes_done` and `bytes_left`. They start
from the whole blocks of the immediate data, and every Data-Out that is taken moves its
length from the one to the other. The length is the initiator's, and nothing compares it
with what is left.

So the accounts of a task are right (`Accounted`) as long as every Data-Out that is taken
fits into what is left (`FitsRest`), and `accounting_iff` says that one Data-Out that does not
fit breaks them.
-/

namespace IscsiTarget

variable {β : Type} (T : Target β)

/-- What is done and what is left make up the buffer of the command. -/
def Accounts (q : Pdu) (session : R2tSession) : Prop :=
  session.bytesDone.toNat + session.bytesLeft.toNat = nBytesOf T q

instance (q : Pdu) (session : R2tSession) : Decidable (Accounts T q session) :=
  inferInstanceAs (Decidable (_ = _))

/-- An R2T asks for bytes inside the buffer of the command. -/
def AsksInside (q : Pdu) : Event → Prop
  | .sent (.r2t p) _ => p.bufferoff.toNat + p.ddtf.toNat ≤ nBytesOf T q
  | _ => True

instance (q : Pdu) : DecidablePred (AsksInside T q)
  | .sent (.r2t p) _ =>
    inferInstanceAs (Decidable (p.bufferoff.toNat + p.ddtf.toNat ≤ nBytesOf T q))
  | .sent (.scsiResponse _) _ | .sent (.dataIn _) _ | .sent (.nopIn _) _
  | .sent (.loginReply _) _ | .sent (.textReply _) _ | .sent (.logoutReply _) _
  | .sent (.taskmanReply _) _ | .sent (.reject _) _ | .received _ | .io _ _ => isTrue trivial

/-- The step from `c` to `c'` on the Data-Out `d` keeps the accounts of the
command `q`: the counters add up, neither of them wraps around (`bytes_done`
does not fall and `bytes_left` does not rise), and the R2Ts stay inside the
buffer. -/
structure Accounted (q d : Pdu) (c c' : Conn β) : Prop where
  total : ∀ rs', c'.ses.getR2tSesion d.tag = some rs' → Accounts T q rs'
  no_wrap : ∀ rs rs', c.ses.getR2tSesion d.tag = some rs → c'.ses.getR2tSesion d.tag = some rs' →
    rs.bytesDone ≤ rs'.bytesDone ∧ rs'.bytesLeft ≤ rs.bytesLeft
  asks : ∀ evs, c.scsi.Does c'.scsi evs → ∀ e ∈ evs, AsksInside T q e

/-- The handling of the Data-Out `d` keeps the accounts of the command `q`. -/
def KeepsAccounts (fuel : ℕ) (q : Pdu) (c : Conn β) (d : Pdu) : Prop :=
  ∀ c', serve T fuel c d = .ok c' → Accounted T q d c c'

/-- A Data-Out that is taken is not longer than what is left. -/
def FitsRest (c : Conn β) (d : Pdu) : Prop :=
  ∀ session, c.ses.getR2tSesion d.tag = some session → Takes T c d session →
    d.data.length ≤ session.bytesLeft.toNat

variable {T} {q d : Pdu} {session session' : R2tSession} {evs : List Event}

/-! ### The start -/

/-- **A new R2T session adds up.** The immediate data has been counted in whole
blocks, and there are not more of them than the command asks for. -/
theorem accounts_taskOf (h_small : nBytesOf T q < 2 ^ 32) (h_data : q.data.length ≤ nBytesOf T q) :
    Accounts T q (taskOf T q) := by
  have h_blocks : immediateBlocks T q * T.blockSize ≤ q.data.length := Nat.div_mul_le_self _ _
  have h_done : (taskOf T q).bytesDone.toNat = immediateBlocks T q * T.blockSize := by
    show (UInt32.ofNat (immediateBlocks T q * T.blockSize)).toNat = _
    exact toNat_ofNat_32 (by omega)
  show _ + _ = _
  rw [h_done, toNat_bytesLeft h_small]
  omega

/-! ### One Data-Out -/

/-- Data that fits moves from `bytes_left` to `bytes_done`, so that the sum
stays what the command asks for. -/
theorem Take.accounts (h : Take T d session evs session') (h_acc : Accounts T q session)
    (h_small : nBytesOf T q < 2 ^ 32) (h_fits : d.data.length ≤ session.bytesLeft.toNat) :
    Accounts T q session' ∧ session.bytesDone ≤ session'.bytesDone ∧
      session'.bytesLeft ≤ session.bytesLeft := by
  have h_moved : Accounts T q (session.advance (UInt32.ofNat d.data.length)) ∧
      session.bytesDone ≤ session.bytesDone + UInt32.ofNat d.data.length ∧
      session.bytesLeft - UInt32.ofNat d.data.length ≤ session.bytesLeft := by
    have h_d := d.data_lt
    have h_n : (UInt32.ofNat d.data.length).toNat = d.data.length := toNat_ofNat_32 (by omega)
    unfold Accounts at h_acc ⊢
    show (session.bytesDone + UInt32.ofNat d.data.length).toNat +
      (session.bytesLeft - UInt32.ofNat d.data.length).toNat = _ ∧ _
    rw [UInt32.le_iff_toNat_le, UInt32.le_iff_toNat_le, UInt32.toNat_add, UInt32.toNat_sub, h_n]
    omega
  cases h with
  | empty hd => exact ⟨h_acc, UInt32.le_refl _, UInt32.le_refl _⟩
  | written hd halign hfua => exact h_moved
  | unsynced hd halign hfua => exact h_moved

/-- What is left falls only when the data fits. -/
theorem Take.fits (h : Take T d session evs session')
    (h_le : session'.bytesLeft ≤ session.bytesLeft) :
    d.data.length ≤ session.bytesLeft.toNat := by
  have h_d := d.data_lt
  have h_left := h.bytesLeft
  rw [UInt32.le_iff_toNat_le] at h_le
  omega

/-- The R2T for the rest stays inside the buffer. -/
theorem asksInside_restPdu (h : Accounts T q session) (tag : UInt32) (ok : Bool) :
    AsksInside T q (.sent (restPdu T session tag) ok) := h.le

theorem Take.asksInside (h : Take T d session evs session') : ∀ e ∈ evs, AsksInside T q e := by
  cases h with
  | empty hd => simp
  | written hd halign hfua => simp [AsksInside]
  | unsynced hd halign hfua => simp [AsksInside]

/-- **A Data-Out that fits** keeps the accounts. The subtraction does not wrap
around then, and the R2T that may follow asks for what is left. -/
theorem TaskStep.accounts {locked takes : Prop} {after : Option R2tSession}
    (h : TaskStep T locked takes d session evs after) (h_acc : Accounts T q session)
    (h_small : nBytesOf T q < 2 ^ 32) (h_fits : takes → d.data.length ≤ session.bytesLeft.toNat) :
    (∀ rs, after = some rs → Accounts T q rs ∧ session.bytesDone ≤ rs.bytesDone ∧
      rs.bytesLeft ≤ session.bytesLeft) ∧ ∀ e ∈ evs, AsksInside T q e := by
  -- in the first four cases the R2T session stays what it is
  have h_stay : ∀ rs, some session = some rs → Accounts T q rs ∧
      session.bytesDone ≤ rs.bytesDone ∧ rs.bytesLeft ≤ session.bytesLeft := by
    intro rs h_rs
    obtain rfl := Option.some.inj h_rs
    exact ⟨h_acc, UInt32.le_refl _, UInt32.le_refl _⟩
  cases h with
  | refused hbad => exact ⟨h_stay, by simp [AsksInside]⟩
  | reserved hd halign hl ok => exact ⟨h_stay, by simp [AsksInside, ioErrorPdu]⟩
  | writeFailed hd halign hl ok => exact ⟨h_stay, by simp [AsksInside, ioErrorPdu]⟩
  | synced hd halign hl hfua ok => exact ⟨h_stay, by simp [AsksInside, ioErrorPdu]⟩
  | @taken es session' ht hd hl htake hF =>
    have h_moved := htake.accounts h_acc h_small (h_fits ht)
    refine ⟨fun rs h_rs => ?_, List.forall_mem_cons.mpr ⟨trivial, htake.asksInside⟩⟩
    obtain rfl := Option.some.inj h_rs
    exact h_moved
  | ended ht hl htake hF hleft ok =>
    refine ⟨fun rs h_rs => absurd h_rs (by simp), List.forall_mem_cons.mpr ⟨trivial, ?_⟩⟩
    exact List.forall_mem_append.mpr ⟨htake.asksInside, by simp [AsksInside, goodPdu]⟩
  | @continued es session' ht hl htake hF hleft asked hasked ok =>
    have h_moved := htake.accounts h_acc h_small (h_fits ht)
    refine ⟨fun rs h_rs => ?_, List.forall_mem_cons.mpr ⟨trivial, ?_⟩⟩
    · obtain rfl := Option.some.inj h_rs
      exact h_moved
    · refine List.forall_mem_append.mpr ⟨htake.asksInside, List.forall_mem_cons.mpr ⟨?_, ?_⟩⟩
      · simp [AsksInside, goodPdu]
      · intro e he
        obtain ⟨ok', rfl⟩ := hasked e he
        exact asksInside_restPdu h_moved.1 _ _

/-! ### The run -/

variable (T) in
/-- The R2T session of the tag, if there is one, is that of a WRITE and adds up. -/
def TaskAccounts (q : Pdu) (tag : UInt32) (c : Conn β) : Prop :=
  ∀ rs, c.ses.getR2tSesion tag = some rs → rs.isWriteSame = false ∧ Accounts T q rs

/-- A Data-Out does not make the R2T session of a WRITE one of a WRITE SAME. Of
a session only the counters change. -/
theorem DataOutOutcome.isWriteSame {c c' : Conn β} (h : DataOutOutcome T c d c')
    (hsame : ∀ rs, c.ses.getR2tSesion d.tag = some rs → rs.isWriteSame = false) :
    ∀ rs, c'.ses.getR2tSesion d.tag = some rs → rs.isWriteSame = false := by
  intro rs' h_rs'
  cases h_ses : c.ses.getR2tSesion d.tag with
  | none =>
    rw [h.eq_receive h_ses] at h_rs'
    exact hsame rs' h_rs'
  | some rs =>
    obtain ⟨evs, -, h_step⟩ := h.taskStep h_ses (hsame rs h_ses)
    rw [h_rs'] at h_step
    rcases h_step.eq_or with h_eq | h_eq
    · rw [h_eq]
      exact hsame rs h_ses
    · rw [h_eq]
      exact hsame rs h_ses

/-- **The step lemma**: a Data-Out that fits keeps the accounts. Those of the
other tasks are not touched by it. -/
theorem TaskAccounts.step {fuel : ℕ} {c c' : Conn β} (h : TaskAccounts T q d.tag c)
    (h_small : nBytesOf T q < 2 ^ 32) (hop : d.bhs.getOpcode = .scsiDataOut)
    (h_fits : FitsRest T c d) (h_serve : serve T fuel c d = .ok c') :
    Accounted T q d c c' ∧ TaskAccounts T q d.tag c' := by
  obtain ⟨c'', h_serve', h_out⟩ := serve_dataOut (T := T) fuel c hop
  obtain rfl := Except.ok.inj (h_serve'.symm.trans h_serve)
  have h_same := h_out.isWriteSame fun rs h_rs => (h rs h_rs).1
  cases h_ses : c.ses.getR2tSesion d.tag with
  | none =>
    -- nobody waits for the data: it is received, and that is all
    rw [h_out.eq_receive h_ses]
    have h_none : ∀ rs, (c.receive d).ses.getR2tSesion d.tag ≠ some rs := by
      intro rs h_rs
      exact nomatch h_ses.symm.trans h_rs
    refine ⟨⟨fun rs h_rs => absurd h_rs (h_none rs), fun rs _ h_rs => ?_, fun evs h_evs => ?_⟩,
      fun rs h_rs => absurd h_rs (h_none rs)⟩
    · exact absurd h_rs (by rw [h_ses]; simp)
    · obtain rfl := h_evs.unique (Scsi.does_note (.received d))
      simp [AsksInside]
  | some session =>
    obtain ⟨h_write, h_acc⟩ := h session h_ses
    obtain ⟨evs, h_does, h_step⟩ := h_out.taskStep h_ses h_write
    obtain ⟨h_after, h_asks⟩ := h_step.accounts h_acc h_small (h_fits session h_ses)
    refine ⟨⟨fun rs h_rs => (h_after rs h_rs).1, fun rs rs' h_rs h_rs' => ?_,
      fun evs' h_evs' => ?_⟩,
      fun rs h_rs => ⟨h_same rs h_rs, (h_after rs h_rs).1⟩⟩
    · obtain rfl := Option.some.inj (h_ses.symm.trans h_rs)
      exact (h_after rs' h_rs').2
    · obtain rfl := h_evs'.unique h_does
      exact h_asks

/-- **One Data-Out that does not fit breaks the accounts**: what is left rises,
because the subtraction in 32 bits has wrapped around. -/
theorem DataOutOutcome.fits {c c' : Conn β} (h : DataOutOutcome T c d c')
    (hsame : ∀ rs, c.ses.getR2tSesion d.tag = some rs → rs.isWriteSame = false)
    (h_acc : Accounted T q d c c') : FitsRest T c d := by
  intro session h_ses h_takes
  by_cases hd : d.data = []
  · rw [hd]
    exact Nat.zero_le _
  obtain ⟨s', c₁, h_del⟩ := h_takes
  cases h_del with
  | empty hd' => exact absurd hd' hd
  | data _ h_align h_written h_sync =>
    cases h with
    -- a Data-Out that is taken has none of the other outcomes
    | unknown hses => exact nomatch hses.symm.trans h_ses
    | refused hses hbad =>
      rcases hbad with h_empty | h_bad
      · exact absurd h_empty.1 hd
      · exact absurd h_align h_bad.2
    | writeFailed hses hd' halign hwritten =>
      obtain rfl := Option.some.inj (h_ses.symm.trans hses)
      exact absurd h_written hwritten
    | syncFalse hses hd' halign hwritten hfua hsync =>
      obtain rfl := Option.some.inj (h_ses.symm.trans hses)
      exact absurd ((h_sync hfua).symm.trans hsync) (by simp)
    | delivered hses hd' hdel hF =>
      obtain rfl := Option.some.inj (h_ses.symm.trans hses)
      obtain ⟨evs, h_take, -⟩ := hdel.take (hsame _ h_ses)
      exact h_take.fits (h_acc.no_wrap _ _ h_ses (hdel.getR2tSesion h_ses)).2
    | @finished _ session' c₂ hses hdel hF =>
      obtain rfl := Option.some.inj (h_ses.symm.trans hses)
      obtain ⟨evs, h_take, -⟩ := hdel.take (hsame _ h_ses)
      -- nothing left now, so it had fitted; or the accounts tell
      by_cases h_left : session'.bytesLeft = 0
      · refine h_take.fits ?_
        rw [h_left]
        exact UInt32.zero_le
      · refine h_take.fits (h_acc.no_wrap _ session' h_ses ?_).2
        rw [closeBatch_ses_of_ne_zero _ _ h_left]
        exact hdel.getR2tSesion h_ses

/-- **R2T byte accounting.** A WRITE with at most as much immediate data as it
asks for has opened an R2T session, whose counters add up. Over any sequence of
Data-Outs for it, the accounts are kept exactly when every Data-Out that is
taken fits into what is left. -/
theorem accounting_iff (fuel : ℕ) {c c₀ : Conn β} (hq : q.IsWrite)
    (h_data : q.data.length ≤ nBytesOf T q)
    (h_fresh : c.ses.getR2tSesion (commandTag T c q) = none)
    (h_command : serve T fuel c q = .ok c₀)
    (h_open : c₀.ses.getR2tSesion (commandTag T c q) ≠ none) {dos : List Pdu}
    (h_dos : ∀ d ∈ dos, d.bhs.getOpcode = .scsiDataOut ∧ d.tag = commandTag T c q) :
    (∃ session, c₀.ses.getR2tSesion (commandTag T c q) = some session ∧ Accounts T q session) ∧
      (∃ c', Machine.run (serve T fuel) c₀ dos = .ok c') ∧
      (Machine.Along (serve T fuel) (KeepsAccounts T fuel q) c₀ dos ↔
        Machine.Along (serve T fuel) (FitsRest T) c₀ dos) := by
  obtain ⟨-, h_task⟩ := opened_of_serve hq h_fresh h_command h_open
  have h_small := nBytesOf_lt_of_opened hq h_fresh h_command h_open
  have h_start := accounts_taskOf h_small h_data
  refine ⟨⟨_, h_task, h_start⟩, ?_, fun h => ?_, fun h => ?_⟩
  · refine Machine.run_ok_of_mem (fun d hd s => ?_) c₀
    obtain ⟨s', h_s', -⟩ := serve_dataOut (T := T) fuel s (h_dos d hd).1
    exact ⟨s', h_s'⟩
  · -- the accounts are kept, so every Data-Out fits
    refine Machine.along_of_invariant
      (I := fun c' => ∀ rs, c'.ses.getR2tSesion (commandTag T c q) = some rs →
        rs.isWriteSame = false) ?_ ?_ dos c₀ ?_ (h.and_mem h_dos)
    · rintro s d s' h_same ⟨-, hop, h_tag⟩ h_step
      obtain ⟨s'', h_step', h_out⟩ := serve_dataOut (T := T) fuel s hop
      obtain rfl := Except.ok.inj (h_step'.symm.trans h_step)
      rw [← h_tag] at h_same ⊢
      exact h_out.isWriteSame h_same
    · rintro s d h_same ⟨h_keeps, hop, h_tag⟩
      obtain ⟨s', h_step, h_out⟩ := serve_dataOut (T := T) fuel s hop
      rw [← h_tag] at h_same
      exact h_out.fits h_same (h_keeps s' h_step)
    · intro rs h_rs
      obtain rfl := Option.some.inj (h_task.symm.trans h_rs)
      exact taskOf_isWriteSame q
  · -- every Data-Out fits, so the accounts are kept
    refine Machine.along_of_invariant (I := TaskAccounts T q (commandTag T c q)) ?_ ?_ dos c₀ ?_
      (h.and_mem h_dos)
    · rintro s d s' h_acc ⟨h_fits, hop, h_tag⟩ h_step
      rw [← h_tag] at h_acc ⊢
      exact (h_acc.step h_small hop h_fits h_step).2
    · rintro s d h_acc ⟨h_fits, hop, h_tag⟩ s' h_step
      rw [← h_tag] at h_acc
      exact (h_acc.step h_small hop h_fits h_step).1
    · intro rs h_rs
      obtain rfl := Option.some.inj (h_task.symm.trans h_rs)
      exact ⟨taskOf_isWriteSame q, h_start⟩

/-- A Data-Out in which the accounts are looked at, and the one that ends the
task: both fit, and the accounts are kept. -/
theorem accounting_twoBlocks :
    ∃ c₀, serve (Sample.target 8) 0 (Sample.conn 8 []) Sample.twoBlocks = .ok c₀ ∧
      Machine.Along (serve (Sample.target 8) 0)
        (KeepsAccounts (Sample.target 8) 0 Sample.twoBlocks) c₀
        [Sample.dataOut 5 0 false (Sample.block 1), Sample.dataOut 5 16 true (Sample.block 2)] := by
  have h_write : Sample.twoBlocks.IsWrite := ⟨by decide +kernel, by decide +kernel⟩
  have h_dos : ∀ d ∈ [Sample.dataOut 5 0 false (Sample.block 1),
      Sample.dataOut 5 16 true (Sample.block 2)], d.bhs.getOpcode = .scsiDataOut ∧
        d.tag = commandTag (Sample.target 8) (Sample.conn 8 []) Sample.twoBlocks := by
    decide +kernel
  have h_fresh : (Sample.conn 8 []).ses.getR2tSesion
      (commandTag (Sample.target 8) (Sample.conn 8 []) Sample.twoBlocks) = none := rfl
  have h_eval : (serve (Sample.target 8) 0 (Sample.conn 8 []) Sample.twoBlocks).toOption.any
      (fun c => decide (c.ses.getR2tSesion
          (commandTag (Sample.target 8) (Sample.conn 8 []) Sample.twoBlocks) =
        some (taskOf (Sample.target 8) Sample.twoBlocks))) = true := by decide +kernel
  obtain ⟨c₀, h_command, h_task⟩ := Machine.exists_ok_of_any h_eval
  have h_open : c₀.ses.getR2tSesion
      (commandTag (Sample.target 8) (Sample.conn 8 []) Sample.twoBlocks) ≠ none := by
    rw [h_task]
    simp
  refine ⟨c₀, h_command, ?_⟩
  refine (accounting_iff 0 h_write (by decide +kernel) h_fresh h_command h_open h_dos).2.2.mpr
    ⟨?_, fun c₁ h_first => ⟨?_, fun _ _ => trivial⟩⟩
  · intro session h_ses _
    rw [(h_dos _ List.mem_cons_self).2, h_task] at h_ses
    obtain rfl := Option.some.inj h_ses
    decide +kernel
  · -- one block is left
    have h_eval₁ : ((serve (Sample.target 8) 0 (Sample.conn 8 []) Sample.twoBlocks).bind fun c =>
        serve (Sample.target 8) 0 c (Sample.dataOut 5 0 false (Sample.block 1))).toOption.any
        (fun c => decide ((c.ses.getR2tSesion
          (Sample.dataOut 5 16 true (Sample.block 2)).tag).map R2tSession.bytesLeft =
            some 16)) = true := by decide +kernel
    obtain ⟨c₁', h_first', h_left⟩ := Machine.exists_ok_of_any h_eval₁
    rw [h_command] at h_first'
    obtain rfl : c₁ = c₁' := Except.ok.inj (h_first.symm.trans h_first')
    intro session h_ses _
    rw [h_ses] at h_left
    rw [Option.some.inj h_left]
    decide +kernel

/-- Three blocks for a command of two: `bytes_left` wraps around, and the next
R2T would ask for almost `2 ^ 32` bytes. -/
theorem accounting_fails :
    ∃ c', Machine.run (serve (Sample.target 8) 0) (Sample.conn 8 [])
        [Sample.twoBlocks,
          Sample.dataOut 5 0 true (Sample.block 1 ++ Sample.block 2 ++ Sample.block 3)] = .ok c' ∧
      (∃ rs, c'.ses.getR2tSesion 5 = some rs ∧ rs.bytesDone = 48 ∧ rs.bytesLeft = 4294967280 ∧
        ¬ Accounts (Sample.target 8) Sample.twoBlocks rs) ∧
      ∃ e ∈ c'.scsi.history, ¬ AsksInside (Sample.target 8) Sample.twoBlocks e := by
  have h_eval : (Machine.run (serve (Sample.target 8) 0) (Sample.conn 8 [])
        [Sample.twoBlocks,
          Sample.dataOut 5 0 true
            (Sample.block 1 ++ Sample.block 2 ++ Sample.block 3)]).toOption.any
      (fun c => decide ((c.ses.getR2tSesion 5).any (fun rs => decide (rs.bytesDone = 48 ∧
          rs.bytesLeft = 4294967280 ∧ ¬ Accounts (Sample.target 8) Sample.twoBlocks rs)) = true ∧
        ∃ e ∈ c.scsi.history, ¬ AsksInside (Sample.target 8) Sample.twoBlocks e)) =
      true := by decide +kernel
  obtain ⟨c', h_run, h_rs, h_asks⟩ := Machine.exists_ok_of_any h_eval
  refine ⟨c', h_run, ?_, h_asks⟩
  -- the session is still there, with its counters
  cases h_ses : c'.ses.getR2tSesion 5 with
  | none =>
    rw [h_ses] at h_rs
    exact absurd h_rs (by simp)
  | some rs =>
    rw [h_ses] at h_rs
    exact ⟨rs, rfl, of_decide_eq_true h_rs⟩

end IscsiTarget
