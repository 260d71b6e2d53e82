import IscsiTarget.Answers.Reply
import IscsiTarget.Answers.Stream
import IscsiTarget.Commands.WriteSame
import IscsiTarget.Read.Returns

/-!
# The answer to a SCSI Command

`serve_scsiCmd` says what a SCSI Command sends: nothing at all in the four cases of
`Unanswered`, and otherwise an answer (`Answered`), in which exactly one PDU bears status or
an R2T puts it off. `exists_serve_iff` says when there is an end to the handling: in all cases
but the three of `Stuck`.

Both speak about the state the command meets and about what the backend does from there. For
immediate data that is spelled out in `ImmediateFails`.
-/

namespace IscsiTarget

variable {β : Type} (T : Target β)

/-! ### Immediate data and the backend -/

/-- The backend call for the whole blocks of immediate data. -/
def blocksBackend (d : β) (lba : UInt64) (n : UInt32) (data : Bytes) : Bool × β :=
  if data.length / T.blockSize > 0 then
    Scsi.writeBackend T d lba (Scsi.workNBlocks T n data) data
  else (true, d)

/-- Less than a block is left of the data. -/
def HasFragment (n : UInt32) (data : Bytes) : Prop :=
  0 < data.length - T.nBytes (Scsi.workNBlocks T n data) ∧
    data.length - T.nBytes (Scsi.workNBlocks T n data) < T.blockSize

instance (n : UInt32) (data : Bytes) : Decidable (HasFragment T n data) :=
  inferInstanceAs (Decidable (_ ∧ _))

/-- The backend calls for the rest: the block is read, and written with the data
merged in. The read is for the block behind the whole ones, while the write goes
to the block that the length of the data leads to. -/
def fragmentBackend (d : β) (lba : UInt64) (n : UInt32) (data : Bytes) : Bool × β :=
  let workBytes := T.nBytes (Scsi.workNBlocks T n data)
  match T.backend.read d (lba + (Scsi.workNBlocks T n data).toUInt64) 1 with
  | (some buf, d') => Scsi.writeBackend T d' (lba + UInt64.ofNat (data.length / T.blockSize)) 1
      (data.drop workBytes ++ buf.drop (data.length - workBytes))
  | (none, d') => (false, d')

/-- One of the backend calls for the immediate data fails: the write of the
whole blocks, or, when that has succeeded, the read or the write of the block
that is filled only in part. A reservation of another session is found before
any of them. -/
def ImmediateFails (s : Scsi β) (lba : UInt64) (n : UInt32) (data : Bytes) : Prop :=
  s.lockingStatus T ≠ .lockedOther ∧
    ((blocksBackend T s.disk lba n data).1 = false ∨
      (blocksBackend T s.disk lba n data).1 = true ∧ HasFragment T n data ∧
        (fragmentBackend T (blocksBackend T s.disk lba n data).2 lba n data).1 = false)

instance (s : Scsi β) (lba : UInt64) (n : UInt32) (data : Bytes) :
    Decidable (ImmediateFails T s lba n data) := inferInstanceAs (Decidable (_ ∧ _))

namespace Scsi

variable {T} {s : Scsi β} {lba : UInt64} {n : UInt32} {data : Bytes}

theorem afterCall_eq_failGeneral_iff (call : IoCall) (r : Bool × β) :
    (s.afterCall call r).1 = .failGeneral ↔ r.1 = false := by
  unfold afterCall
  cases r.1 <;> simp

theorem storeBlocks_of_unlocked (hl : s.lockingStatus T ≠ .lockedOther) :
    ((s.storeBlocks T lba n data).1 = .ok ↔ (blocksBackend T s.disk lba n data).1 = true) ∧
      ((s.storeBlocks T lba n data).1 = .failGeneral ↔
        (blocksBackend T s.disk lba n data).1 = false) ∧
      (s.storeBlocks T lba n data).2.disk = (blocksBackend T s.disk lba n data).2 ∧
      (s.storeBlocks T lba n data).2.lockingStatus T = s.lockingStatus T := by
  unfold storeBlocks blocksBackend
  split
  · rw [write_of_unlocked hl]
    exact ⟨afterCall_eq_ok_iff _ _, afterCall_eq_failGeneral_iff _ _, rfl, rfl⟩
  · simp

theorem storeFragment_of_unlocked (hl : s.lockingStatus T ≠ .lockedOther) :
    (s.storeFragment T lba n data).1 = .failGeneral ↔
      (fragmentBackend T s.disk lba n data).1 = false := by
  unfold storeFragment fragmentBackend
  rw [read_of_unlocked hl]
  rcases T.backend.read s.disk (lba + (workNBlocks T n data).toUInt64) 1 with ⟨buf | _, d'⟩
  · simp
  · dsimp only
    rw [write_of_unlocked (s := (s.afterCall _ _).2) hl, afterCall_eq_failGeneral_iff]
    rfl

/-- **Immediate data is not stored** because of the backend: one of the calls
for the whole blocks or for the fragment has failed. -/
theorem storeImmediate_eq_failGeneral_iff :
    (s.storeImmediate T lba n data).1 = .failGeneral ↔ ImmediateFails T s lba n data := by
  by_cases hl : s.lockingStatus T = .lockedOther
  · -- no call is made
    refine iff_of_false (fun h => ?_) fun h => h.1 hl
    obtain ⟨evs, h_evs⟩ := transfers_storeImmediate (T := T) s lba n data
    obtain ⟨e, he, -⟩ := h_evs.fail h
    rw [h_evs.quiet hl] at he
    exact absurd he List.not_mem_nil
  obtain ⟨h_ok, h_fail, h_disk, h_lock⟩ :=
    @storeBlocks_of_unlocked _ T s lba n data hl
  unfold ImmediateFails storeImmediate HasFragment
  dsimp only
  split
  · next h =>
    rw [storeFragment_of_unlocked (by rw [h_lock]; exact hl), h_disk]
    -- the whole blocks are stored, so it is up to the fragment
    have h_true := h_ok.mp h.1
    simp [hl, h_true, h.2]
  · next h =>
    -- the blocks have failed, or there is no fragment behind them
    rw [h_fail]
    constructor
    · exact fun h_false => ⟨hl, .inl h_false⟩
    · rintro ⟨-, h_false | ⟨h_true, h_frag, -⟩⟩
      · exact h_false
      · exact absurd ⟨h_ok.mpr h_true, h_frag⟩ h

/-- When it is stored: no other session has the reservation, unless there is no
data, and all the backend calls work. -/
theorem storeImmediate_eq_ok_iff :
    (s.storeImmediate T lba n data).1 = .ok ↔
      (data = [] ∨ s.lockingStatus T ≠ .lockedOther) ∧ ¬ ImmediateFails T s lba n data := by
  rw [← storeImmediate_eq_failGeneral_iff]
  obtain ⟨evs, h_evs⟩ := transfers_storeImmediate (T := T) s lba n data
  by_cases hd : data = []
  · rw [hd, storeImmediate_nil]
    simp
  by_cases hl : s.lockingStatus T = .lockedOther
  · rw [storeImmediate_of_locked hl hd]
    simp [hd, hl]
  · -- not locked out, so it succeeds or fails for good
    rcases h_evs.result with h | h | h
    · rw [h]
      simp [hl]
    · exact absurd (h_evs.locked h) hl
    · rw [h]
      simp

end Scsi

/-! ### Commands that get no answer -/

/-- The command asks for data in Data-Outs: a WRITE some of whose data is
missing, or a WRITE SAME without data; and it agrees with the PDU about the
amount. -/
def WantsDataOut (c : Conn β) (q : Pdu) : Prop :=
  writeCheck T c q = none ∧ nBytesOf T q = q.bhs.getExpDatLen.toNat ∧
    (q.bhs.getCdb.opcode.isWrite = true ∧ ¬ Complete T q ∧
        (q.data = [] ∨ c.scsi.lockingStatus T ≠ .lockedOther) ∧
        ¬ ImmediateFails T c.scsi q.lba q.nBlocks q.data ∨
      q.bhs.getCdb.opcode.isWriteSame = true ∧ q.data = [] ∧ q.nBlocks.toNat = T.blockSize)

/-- The reserved tag is used, and the random generator does not deliver another
one. -/
def NoTag (c : Conn β) (q : Pdu) : Prop :=
  q.bhs.getItasktag = 0xffffffff ∧ T.random (storedImmediate T c q).2.history 0 = none

/-- The commands that get no answer, one case for each way in which their
handling comes to an end without a PDU to send. -/
inductive Unanswered (c : Conn β) (q : Pdu) : Prop
  /-- The answer would be data, and there is none or none is expected. -/
  | noData (h_data : c.scsi.ReturnsData T q.bhs.getCdb)
    (h_none : Scsi.AllocatesNothing q.bhs.getCdb ∨ q.bhs.getExpDatLen = 0)
  /-- The backend fails to store the immediate data of a WRITE. -/
  | notStored (h_write : q.bhs.getCdb.opcode.isWrite = true) (h_check : writeCheck T c q = none)
    (h_fails : ImmediateFails T c.scsi q.lba q.nBlocks q.data)
  /-- The data of a WRITE SAME is not one block. -/
  | miscounted (h_same : q.bhs.getCdb.opcode.isWriteSame = true)
    (h_check : writeCheck T c q = none) (hd : q.data ≠ [])
    (h_count : q.data.length / T.blockSize ≠ 1)
  /-- An R2T is called for, and there is no tag for it. -/
  | noTag (h_asks : WantsDataOut T c q) (h_tag : NoTag T c q)

variable {T} {fuel : ℕ} {c c' : Conn β} {q : Pdu}

/-- A tag is chosen, or not. -/
theorem chooseTtt_iff (history : List Event) (itt : UInt32) :
    (chooseTtt T history itt).2 = false ↔ itt = 0xffffffff ∧ T.random history 0 = none := by
  unfold chooseTtt
  by_cases h : itt = 0xffffffff
  · rw [if_neg (not_not.mpr h)]
    cases T.random history 0 <;> simp [h]
  · rw [if_pos h]
    simp [h]

/-- Asking for data: with a tag an R2T is sent, without one nothing is. -/
theorem sends_openR2t (rs : R2tSession) (c : Conn β) (q : Pdu) :
    ∃ ps, c.scsi.Sends (openR2t T rs c q).scsi ps ∧
      ((chooseTtt T c.scsi.history q.bhs.getItasktag).2 = false ∧ ps = [] ∨
        (chooseTtt T c.scsi.history q.bhs.getItasktag).2 = true ∧ Answered T q.bhs True ps) := by
  unfold openR2t
  dsimp only
  cases h : (chooseTtt T c.scsi.history q.bhs.getItasktag).2 with
  | true => exact ⟨_, Conn.sends_answer _ _, .inr ⟨rfl, .ofR2t _ _ _⟩⟩
  | false => exact ⟨[], Scsi.Sends.refl _, .inl ⟨rfl, rfl⟩⟩

/-- What is common to all the commands: they send nothing, or an answer. -/
def SendsAnswer (T : Target β) (c c' : Conn β) (q : Pdu) : Prop :=
  ∃ ps, c.scsi.Sends c'.scsi ps ∧
    (Unanswered T c q ∧ ps = [] ∨ ¬ Unanswered T c q ∧ Answered T q.bhs (WantsDataOut T c q) ps)

/-- A SCSI Response after calls that send nothing. -/
theorem sendsAnswer_of_status {c₁ : Conn β} (h_answered : ¬ Unanswered T c q)
    (h_wants : ¬ WantsDataOut T c q) (h_sends : c.scsi.Sends c₁.scsi []) (sense : Bytes)
    (residual : Option (Residual × UInt32)) :
    SendsAnswer T c (c₁.emit T (statusPdu T q sense residual)) q :=
  ⟨_, h_sends.after (c₁.sends_emit _), .inr ⟨h_answered,
    (Answered.scsiResponse _ _ _).congr (iff_of_false id h_wants)⟩⟩

/-! ### WRITE -/

theorem not_returnsData_of_isWrite (h : q.bhs.getCdb.opcode.isWrite = true) :
    ¬ c.scsi.ReturnsData T q.bhs.getCdb := by
  unfold Scsi.ReturnsData
  generalize q.bhs.getCdb.opcode = op at h
  cases op <;> simp_all [ScsiOpcode.isWrite]

theorem isWriteSame_of_isWrite {op : ScsiOpcode} (h : op.isWrite = true) :
    op.isWriteSame = false := by
  cases op <;> first | rfl | exact nomatch h

/-- What can leave a WRITE without an answer: a backend that fails, or an R2T
that has no tag. -/
theorem unanswered_iff_of_isWrite (h : q.bhs.getCdb.opcode.isWrite = true) :
    Unanswered T c q ↔ writeCheck T c q = none ∧
      (ImmediateFails T c.scsi q.lba q.nBlocks q.data ∨ WantsDataOut T c q ∧ NoTag T c q) := by
  constructor
  · intro h_un
    cases h_un with
    | noData h_data h_none => exact absurd h_data (not_returnsData_of_isWrite h)
    | notStored h_write h_check h_fails => exact ⟨h_check, .inl h_fails⟩
    | miscounted h_same h_check hd h_count =>
      exact absurd ((isWriteSame_of_isWrite h).symm.trans h_same) (by simp)
    | noTag h_asks h_tag => exact ⟨h_asks.1, .inr ⟨h_asks, h_tag⟩⟩
  · rintro ⟨h_check, h_fails | ⟨h_asks, h_tag⟩⟩
    · exact .notStored h h_check h_fails
    · exact .noTag h_asks h_tag

theorem sends_storedImmediate (c : Conn β) (q : Pdu) :
    c.scsi.Sends (storedImmediate T c q).2 [] :=
  (c.sends_receive q).after (Scsi.sends_storeImmediate _ _ _)

/-- **A WRITE** is answered unless the backend fails or there is no tag. The
cases are the ways its handling can end. -/
theorem sendsAnswer_write (hq : q.IsWrite) (h : WriteOutcome T c q c') : SendsAnswer T c c' q := by
  have h_un := @unanswered_iff_of_isWrite _ T c q hq.write
  have h_stored := sends_storedImmediate (T := T) c q
  -- an outcome in which the command does not ask for data
  have h_done : ∀ {rc : RwResult}, rc ≠ .failGeneral → (storedImmediate T c q).1 = rc →
      ¬ WantsDataOut T c q → ¬ Unanswered T c q := by
    intro rc h_rc h_eq h_asks h_un'
    rcases (h_un.mp h_un').2 with h_fails | h_tag
    · exact h_rc (h_eq.symm.trans (Scsi.storeImmediate_eq_failGeneral_iff.mpr h_fails))
    · exact h_asks h_tag.1
  have h_status : ∀ {rc : RwResult} {c₁ : Conn β} {sense : Bytes}
      {residual : Option (Residual × UInt32)}, rc ≠ .failGeneral → (storedImmediate T c q).1 = rc →
      ¬ WantsDataOut T c q → c.scsi.Sends c₁.scsi [] →
      SendsAnswer T c (c₁.emit T (statusPdu T q sense residual)) q := by
    intro rc c₁ sense residual h_rc h_eq h_asks h_sends
    exact sendsAnswer_of_status (h_done h_rc h_eq h_asks) h_asks h_sends _ _
  have h_not_same : ¬ q.bhs.getCdb.opcode.isWriteSame = true := by
    rw [isWriteSame_of_isWrite hq.write]
    simp
  cases h with
  | refused h_check =>
    refine sendsAnswer_of_status (fun h_un' => ?_) (fun h_wants => ?_) (c.sends_receive q) _ _
    · exact absurd ((h_un.mp h_un').1.symm.trans h_check) (by simp)
    · exact absurd (h_wants.1.symm.trans h_check) (by simp)
  | conflict h_check hst =>
    refine h_status (by simp) hst ?_ h_stored
    rintro ⟨-, -, ⟨-, -, h_free, h_fails⟩ | ⟨h_same, -⟩⟩
    · have h_ok : (storedImmediate T c q).1 = .ok :=
        Scsi.storeImmediate_eq_ok_iff.mpr ⟨h_free, h_fails⟩
      exact absurd (h_ok.symm.trans hst) (by simp)
    · exact h_not_same h_same
  | failed h_check hst =>
    have h_fails := Scsi.storeImmediate_eq_failGeneral_iff.mp hst
    exact ⟨[], h_stored, .inl ⟨.notStored hq.write h_check h_fails, rfl⟩⟩
  | complete h_check hst hcomplete =>
    refine h_status (by simp) hst ?_ (h_stored.after (Scsi.sends_syncedIf _ _))
    rintro ⟨-, -, ⟨-, h_miss, -⟩ | ⟨h_same, -⟩⟩
    · exact h_miss hcomplete
    · exact h_not_same h_same
  | mismatch h_check hst hcomplete hlen =>
    exact h_status (by simp) hst (fun h_asks => hlen h_asks.2.1) h_stored
  | transfer h_check hst hcomplete hlen =>
    obtain ⟨h_free, h_fails⟩ := Scsi.storeImmediate_eq_ok_iff.mp hst
    have h_asks : WantsDataOut T c q :=
      ⟨h_check, hlen, .inl ⟨hq.write, hcomplete, h_free, h_fails⟩⟩
    obtain ⟨ps, h_ps, h_cases⟩ := sends_openR2t (T := T) (r2tOf T q)
      { c with scsi := (storedImmediate T c q).2 } q
    refine ⟨ps, h_stored.after h_ps, ?_⟩
    rcases h_cases with ⟨h_tag, rfl⟩ | ⟨h_tag, h_ans⟩
    · exact .inl ⟨.noTag h_asks ((chooseTtt_iff _ _).mp h_tag), rfl⟩
    · refine .inr ⟨fun h_un' => ?_, h_ans.congr (iff_of_true trivial h_asks)⟩
      rcases (h_un.mp h_un').2 with h' | h'
      · exact h_fails h'
      · have h_false := (chooseTtt_iff _ _).mpr h'.2
        exact absurd (h_false.symm.trans h_tag) (by simp)

/-! ### WRITE SAME -/

theorem isWrite_of_isWriteSame {op : ScsiOpcode} (h : op.isWriteSame = true) :
    op.isWrite = false := by
  cases op <;> first | rfl | exact nomatch h

theorem not_returnsData_of_isWriteSame (h : q.bhs.getCdb.opcode.isWriteSame = true) :
    ¬ c.scsi.ReturnsData T q.bhs.getCdb := by
  unfold Scsi.ReturnsData
  generalize q.bhs.getCdb.opcode = op at h
  cases op <;> simp_all [ScsiOpcode.isWriteSame]

/-- What can leave a WRITE SAME without an answer: data that is not one block,
or an R2T that has no tag. -/
theorem unanswered_iff_of_isWriteSame (h : q.bhs.getCdb.opcode.isWriteSame = true) :
    Unanswered T c q ↔ writeCheck T c q = none ∧
      (q.data ≠ [] ∧ q.data.length / T.blockSize ≠ 1 ∨ WantsDataOut T c q ∧ NoTag T c q) := by
  constructor
  · intro h_un
    cases h_un with
    | noData h_data h_none => exact absurd h_data (not_returnsData_of_isWriteSame h)
    | notStored h_write h_check h_fails =>
      exact absurd ((isWrite_of_isWriteSame h).symm.trans h_write) (by simp)
    | miscounted h_same h_check hd h_count => exact ⟨h_check, .inl ⟨hd, h_count⟩⟩
    | noTag h_asks h_tag => exact ⟨h_asks.1, .inr ⟨h_asks, h_tag⟩⟩
  · rintro ⟨h_check, ⟨hd, h_count⟩ | ⟨h_asks, h_tag⟩⟩
    · exact .miscounted h h_check hd h_count
    · exact .noTag h_asks h_tag

/-- The loop of a WRITE SAME sends nothing. -/
theorem sends_sameLoop {r : RwResult × Scsi β} (h : sameLoop T fuel c q = .ok r) :
    c.scsi.Sends r.2 [] := by
  refine (c.sends_receive q).after ?_
  unfold sameLoop at h
  split at h
  · exact Scsi.sends_writeSameToEnd _ _ _ _ _ h
  · obtain ⟨evs, h_evs⟩ := Scsi.writes_writeSameBlocks (T := T) q.unmaps q.data q.nBlocks.toNat
      q.lba (c.receive q).scsi
    rw [← Except.ok.inj h]
    exact h_evs.sends

/-- Without data the state in which a tag is chosen is the one the command
arrives in. -/
theorem storedImmediate_of_nil (hd : q.data = []) :
    (storedImmediate T c q).2 = (c.receive q).scsi := by
  rw [storedImmediate, hd, Scsi.storeImmediate_nil]

/-- **A WRITE SAME** is answered unless its data is not one block or there is no
tag. A backend that fails does not matter: the loop ends in a status with any
outcome. -/
theorem sendsAnswer_writeSame (hq : q.IsWriteSame) (h : SameOutcome T fuel c q c') :
    SendsAnswer T c c' q := by
  have h_un := @unanswered_iff_of_isWriteSame _ T c q hq.same
  have h_receive := c.sends_receive q
  -- only a WRITE SAME without data asks for it
  have h_wants : WantsDataOut T c q → q.data = [] ∧ q.nBlocks.toNat = T.blockSize := by
    rintro ⟨-, -, ⟨h_write, -⟩ | ⟨-, hd, hn⟩⟩
    · exact absurd ((isWrite_of_isWriteSame hq.same).symm.trans h_write) (by simp)
    · exact ⟨hd, hn⟩
  cases h with
  | refused h_check =>
    refine sendsAnswer_of_status (fun h_un' => ?_) (fun h_asks => ?_) h_receive _ _
    · exact absurd ((h_un.mp h_un').1.symm.trans h_check) (by simp)
    · exact absurd (h_asks.1.symm.trans h_check) (by simp)
  | miscounted h_check hd h_count =>
    exact ⟨[], h_receive, .inl ⟨.miscounted hq.same h_check hd h_count, rfl⟩⟩
  | tooLong h_check hd h_count h_long =>
    refine sendsAnswer_of_status (fun h_un' => ?_) (fun h_asks => hd (h_wants h_asks).1) h_receive
      _ _
    rcases (h_un.mp h_un').2 with h' | h'
    · exact h'.2 h_count
    · exact hd (h_wants h'.1).1
  | looped h_check hd h_count h_long h_loop =>
    refine sendsAnswer_of_status (fun h_un' => ?_) (fun h_asks => hd (h_wants h_asks).1)
      (sends_sameLoop h_loop) _ _
    rcases (h_un.mp h_un').2 with h' | h'
    · exact h'.2 h_count
    · exact hd (h_wants h'.1).1
  | asked h_check hd hn hlen =>
    have h_asks : WantsDataOut T c q := ⟨h_check, hlen, .inr ⟨hq.same, hd, hn⟩⟩
    have h_tag : NoTag T c q ↔
        (chooseTtt T (c.receive q).scsi.history q.bhs.getItasktag).2 = false := by
      rw [chooseTtt_iff, NoTag, storedImmediate_of_nil hd]
    obtain ⟨ps, h_ps, h_cases⟩ := sends_openR2t (T := T) (sameTask q) (c.receive q) q
    refine ⟨ps, h_receive.after h_ps, ?_⟩
    rcases h_cases with ⟨h_false, rfl⟩ | ⟨h_true, h_ans⟩
    · exact .inl ⟨.noTag h_asks (h_tag.mpr h_false), rfl⟩
    · refine .inr ⟨fun h_un' => ?_, h_ans.congr (iff_of_true trivial h_asks)⟩
      rcases (h_un.mp h_un').2 with h' | h'
      · exact h'.1 hd
      · exact absurd ((h_tag.mp h'.2).symm.trans h_true) (by simp)
  | mismatch h_check hd hn hlen =>
    refine sendsAnswer_of_status (fun h_un' => ?_) (fun h_asks => hlen h_asks.2.1) h_receive _ _
    rcases (h_un.mp h_un').2 with h' | h'
    · exact h'.1 hd
    · exact hlen h'.1.2.1
  | nothing h_check hd hn =>
    refine sendsAnswer_of_status (fun h_un' => ?_) (fun h_asks => hn (h_wants h_asks).2) h_receive
      _ _
    rcases (h_un.mp h_un').2 with h' | h'
    · exact h'.1 hd
    · exact hn (h_wants h'.1).2

/-! ### The other commands -/

theorem send_of_serve (hop : q.bhs.getOpcode = .scsiCmd) (h : serve T fuel c q = .ok c') :
    ∃ r s', (c.receive q).scsi.send T fuel q.bhs.getLunNr q.bhs.getCdb q.data = .ok (r, s') := by
  cases h_send : (c.receive q).scsi.send T fuel q.bhs.getLunNr q.bhs.getCdb q.data with
  | ok x => exact ⟨x.1, x.2, rfl⟩
  | error f =>
    have h_send' : (c.scsi.note (.received q)).send T fuel q.bhs.getLunNr q.bhs.getCdb q.data =
      .error f := h_send
    unfold serve pushResponse getResponse scsiCmdGetResponse at h
    rw [if_neg (by simp [hop]), hop] at h
    simp only [h_send'] at h
    exact nomatch h

theorem not_wantsDataOut_of_other (h_write : q.bhs.getCdb.opcode.isWrite = false)
    (h_same : q.bhs.getCdb.opcode.isWriteSame = false) : ¬ WantsDataOut T c q := by
  rintro ⟨-, -, h | h⟩
  · exact absurd (h_write.symm.trans h.1) (by simp)
  · exact absurd (h_same.symm.trans h.1) (by simp)

theorem not_unanswered_of_other (h_write : q.bhs.getCdb.opcode.isWrite = false)
    (h_same : q.bhs.getCdb.opcode.isWriteSame = false)
    (h_data : ¬ c.scsi.ReturnsData T q.bhs.getCdb) : ¬ Unanswered T c q := by
  intro h_un
  cases h_un with
  | noData h_data' h_none => exact h_data h_data'
  | notStored h_write' h_check h_fails => exact absurd (h_write.symm.trans h_write') (by simp)
  | miscounted h_same' h_check hd h_count => exact absurd (h_same.symm.trans h_same') (by simp)
  | noTag h_asks h_tag => exact not_wantsDataOut_of_other h_write h_same h_asks

/-- Data in a buffer is handed to `get`, and the handler adds nothing: even when
a send fails there is no reject. -/
theorem serve_of_isData (hop : q.bhs.getOpcode = .scsiCmd) {r : ScsiResponse} {s' : Scsi β}
    {d : Bytes}
    (hsend : (c.receive q).scsi.send T fuel q.bhs.getLunNr q.bhs.getCdb q.data = .ok (r, s'))
    (hr : r.IsData d) :
    serve T fuel c q = .ok (emitReplies T [.dataIn q.bhs d] .ok { c with scsi := s' }).2 := by
  -- data without sense data has no status of its own; the last Data-In has it
  have h_status : statusReply T { c.receive q with scsi := s' } q.bhs r =
      .ok (none, { c.receive q with scsi := s' }, true) := by
    simp [statusReply, hr.type, hr.senseData]
  have h_get : getResponse T fuel { c with scsi := c.scsi.note (.received q) } q =
      .ok (some { responses := [.dataIn q.bhs d] }, { c with scsi := s' }) := by
    change getResponse T fuel (c.receive q) q = _
    rw [getResponse, hop]
    dsimp only
    unfold scsiCmdGetResponse
    rw [hsend]
    simp only [h_status, hr.inlineData]
    rfl
  obtain ⟨ifr, c', ps, h_emit, h_ifr, -⟩ :=
    sends_dataIn (T := T) q.bhs d { c with scsi := s' }
  have h_push : pushResponse T fuel c q = .ok (ifr, c') := by
    rw [pushResponse, if_neg (by simp [hop]), h_get]
    simp only [finishResponse, emitResponseSet, h_emit]
  unfold serve
  rw [h_push, h_emit]
  rcases h_ifr with rfl | rfl <;> rfl

/-- Data in a buffer, from the answer of `scsi::send` to the end of the command. -/
theorem serve_of_data (hop : q.bhs.getOpcode = .scsiCmd) {r : ScsiResponse} {s' : Scsi β}
    {d : Bytes}
    (hsend : (c.receive q).scsi.send T fuel q.bhs.getLunNr q.bhs.getCdb q.data = .ok (r, s'))
    (hr : r.IsData d) :
    ∃ c' ps, serve T fuel c q = .ok c' ∧ s'.Sends c'.scsi ps ∧
      ((d = [] ∨ q.bhs.getExpDatLen = 0) ∧ ps = [] ∨
        ¬ (d = [] ∨ q.bhs.getExpDatLen = 0) ∧ Answered T q.bhs False ps) := by
  obtain ⟨ifr, c', ps, h_emit, -, h_ps, h_cases⟩ :=
    sends_dataIn (T := T) q.bhs d { c with scsi := s' }
  refine ⟨c', ps, ?_, h_ps, h_cases⟩
  rw [serve_of_isData hop hsend hr, h_emit]

/-- Streamed data. `scsi::send` only says where on the medium it is, and
`push_response` reads it while it sends. -/
theorem serve_of_streams (hop : q.bhs.getOpcode = .scsiCmd)
    (hs : c.scsi.Streams T q.bhs.getCdb) :
    serve T fuel c q =
      (streamData T fuel .ok (c.receive q) q.bhs
        { lba := q.bhs.getCdb.range.1, nSectors := q.bhs.getCdb.range.2 }).bind fun r =>
          (replyToFailure T r.2 (some q) r.1).map (·.2) := by
  have h_check : (c.receive q).scsi.validateRequest T q.bhs.getCdb.range.1 q.bhs.getCdb.range.2
    (some q.bhs.getCdb) = none := hs.2.1
  have h_send : (c.receive q).scsi.send T fuel q.bhs.getLunNr q.bhs.getCdb q.data =
      .ok ((c.receive q).scsi.read_ T q.bhs.getCdb, (c.receive q).scsi) := by
    unfold Scsi.send
    rcases hs.1 with hr | hr | hr | hr <;> rw [hr]
  -- READ only says where the data is; the handler reads it
  have h_read : (c.receive q).scsi.read_ T q.bhs.getCdb =
      { amountOfDataExpected := some (UInt64.ofNat (T.nBytes q.bhs.getCdb.range.2))
        location := { lba := q.bhs.getCdb.range.1, nSectors := q.bhs.getCdb.range.2 } } := by
    unfold Scsi.read_
    simp only [h_check, if_neg hs.2.2]
  rw [h_read] at h_send
  have h_pos : q.bhs.getCdb.range.2 > 0 := UInt32.pos_iff_ne_zero.mpr hs.2.2
  generalize q.bhs.getCdb.range = range at h_pos h_send ⊢
  have h_get := scsiCmdGetResponse_of_location (c := c.receive q) h_send rfl rfl rfl h_pos
  cases h_stream : streamData T fuel .ok (c.receive q) q.bhs
      { lba := range.1, nSectors := range.2 } with
  | ok r => exact serve_of_stream hop h_get h_stream
  | error f =>
    have h_get' : getResponse T fuel { c with scsi := c.scsi.note (.received q) } q =
        .ok (some { responses := [], toStream := some { lba := range.1, nSectors := range.2 } },
          c.receive q) := by
      rw [getResponse, hop]
      exact h_get
    unfold serve
    rw [pushResponse, if_neg (by simp [hop]), h_get']
    simp only [finishResponse, emitResponseSet, emitReplies, h_stream]
    rfl

end IscsiTarget
