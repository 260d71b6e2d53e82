import IscsiTarget.Answers.Command
import IscsiTarget.Lib.Run
import IscsiTarget.Model.Sample

/-!
# One status for each command

`sendsAnswer_scsiCmd` puts the commands together: a SCSI Command whose handling ends sends an
answer, or nothing in the cases of `Unanswered`. `exists_serve_iff` says when the handling
ends: the three cases of `NeverEnds` are two reads behind the received data and a READ on a session
with a segment length of zero. A COMPARE AND WRITE that is too short reads behind its data only
when the backend gets as far as the missing part; one block that differs from the half that has
come is answered like any other (`Scsi.CompareEnds`).

Together that is `oneStatus_iff`.
-/

namespace IscsiTarget

variable {β : Type} {T : Target β} {fuel : ℕ} {c c' : Conn β} {q : Pdu}

/-! ### Streamed data -/

variable (T) in
/-- The parameters a READ starts the streaming loop with. The number of bytes
the target has is the 32-bit product of count and block size, so that it has
wrapped around for the largest READs. -/
def streamParamsOf (c : Conn β) (q : Pdu) : StreamParams where
  replyTo := q.bhs
  scsiHas := UInt32.ofNat (T.nBytes q.bhs.getCdb.range.2)
  iscsiWants := q.bhs.getExpDatLen
  bufferN := bufferN T (c.receive q).scsi.history

/-- Nothing is expected, or the length of the data is zero in 32 bits. -/
theorem offsetEnd_streamParamsOf (c : Conn β) (q : Pdu) :
    (streamParamsOf T c q).offsetEnd = 0 ↔
      T.nBytes q.bhs.getCdb.range.2 % 2 ^ 32 = 0 ∨ q.bhs.getExpDatLen = 0 := by
  have h_min : (streamParamsOf T c q).offsetEnd.toNat =
      min (T.nBytes q.bhs.getCdb.range.2 % 2 ^ 32) q.bhs.getExpDatLen.toNat := by
    rw [StreamParams.offsetEnd, UInt32.toNat_min]
    simp only [streamParamsOf, UInt32.toNat_ofNat']
  rw [← UInt32.toNat_inj, h_min, ← UInt32.toNat_inj]
  change min _ _ = 0 ↔ _ ∨ _ = 0
  omega

theorem streamData_eq (c : Conn β) (q : Pdu) (fuel : ℕ) :
    streamData T fuel .ok (c.receive q) q.bhs
        { lba := q.bhs.getCdb.range.1, nSectors := q.bhs.getCdb.range.2 } =
      if (streamParamsOf T c q).offsetEnd = 0 then
        .ok (sendReason (T.send (c.receive q).scsi.history), (c.receive q).emit T
          (.scsiResponse (.set T q.bhs [] (residualOf (streamParamsOf T c q).scsiHas.toNat
            (streamParamsOf T c q).iscsiWants.toNat) none)))
      else streamLoop T (streamParamsOf T c q) fuel .ok 0 q.bhs.getCdb.range.1 (c.receive q) := by
  unfold streamData streamParamsOf
  generalize q.bhs.getCdb.range = range
  rfl

theorem sendsAnswer_streams (hop : q.bhs.getOpcode = .scsiCmd) (hs : c.scsi.Streams T q.bhs.getCdb)
    (h_un : ¬ Unanswered T c q) (h_wants : ¬ WantsDataOut T c q) (h : serve T fuel c q = .ok c') :
    SendsAnswer T c c' q := by
  rw [serve_of_streams hop hs, streamData_eq] at h
  have h_receive := c.sends_receive q
  by_cases h_zero : (streamParamsOf T c q).offsetEnd = 0
  · rw [if_pos h_zero] at h
    change (replyToFailure T _ (some q) (sendReason _)).map (·.2) = .ok c' at h
    rw [replyToFailure_sendReason] at h
    -- nothing is expected, and a SCSI Response is sent instead
    obtain rfl := Except.ok.inj h
    exact ⟨_, h_receive.after (Conn.sends_emit _ _), .inr ⟨h_un,
      (Answered.scsiResponse _ _ _).congr (iff_of_false id h_wants)⟩⟩
  · rw [if_neg h_zero] at h
    have h_more : 0 < (streamParamsOf T c q).offsetEnd := UInt32.pos_iff_ne_zero.mpr h_zero
    cases h_loop : streamLoop T (streamParamsOf T c q) fuel .ok 0 q.bhs.getCdb.range.1
        (c.receive q) with
    | error f =>
      rw [h_loop] at h
      exact nomatch h
    | ok r =>
      obtain ⟨ifr, c₁⟩ := r
      rw [h_loop] at h
      obtain ⟨ps, h_ps, h_streamed⟩ := sends_streamLoop h_more h_loop
      obtain ⟨reply, c₂, rs, h_reply, h_rs, h_ans⟩ := sends_streamed h_streamed h_ps
      have h_c' : (.ok c₂ : Except Fault (Conn β)) = .ok c' := by
        rw [← h]
        change _ = (replyToFailure T c₁ (some q) ifr).map (·.2)
        rw [h_reply]
        rfl
      obtain rfl := Except.ok.inj h_c'
      exact ⟨rs, h_receive.after h_rs, .inr ⟨h_un, h_ans.congr (iff_of_false id h_wants)⟩⟩

/-! ### All commands -/

/-- The loop of a WRITE SAME that is answered has ended. It is the only part of
`write_same` that may need more turns than it is given. -/
theorem sameLoop_of_send (hq : q.IsWriteSame) {x : ScsiResponse × Scsi β}
    (h_send : (c.receive q).scsi.send T fuel q.bhs.getLunNr q.bhs.getCdb q.data = .ok x)
    (h_check : writeCheck T c q = none) (h_count : q.data.length / T.blockSize = 1)
    (h_long : ¬ SameTooLong T c q) : ∃ r, sameLoop T fuel c q = .ok r := by
  unfold sameLoop
  by_cases h_zero : q.nBlocks = 0
  swap
  · rw [if_neg h_zero]
    exact ⟨_, rfl⟩
  rw [if_pos h_zero]
  -- a block has come, so the handler gets to the loop
  have hd : q.data ≠ [] := by
    intro hd
    rw [hd] at h_count
    simp at h_count
  have h_check' : (c.receive q).scsi.validateRequest T q.bhs.getCdb.range.1
    q.bhs.getCdb.range.2 (some q.bhs.getCdb) = none := h_check
  have h_zero' : q.bhs.getCdb.range.2 = 0 := h_zero
  have h_long' : ¬ (c.receive q).scsi.getSizeInBlocks T - q.bhs.getCdb.range.1 >
    T.build.maxWsLen.toUInt64 := fun h => h_long ⟨h_zero, h⟩
  rw [@send_of_isWriteSame _ T fuel q hq] at h_send
  unfold Scsi.writeSame at h_send
  simp only [h_check'] at h_send
  rw [if_pos hd, if_neg (not_not.mpr h_count), if_pos h_zero', if_neg h_long'] at h_send
  change Except.map _ (Scsi.writeSameToEnd T q.unmaps q.data fuel q.lba (c.receive q).scsi) = _
    at h_send
  cases h_loop : Scsi.writeSameToEnd T q.unmaps q.data fuel q.lba (c.receive q).scsi with
  | ok r => exact ⟨r, rfl⟩
  | error f =>
    rw [h_loop] at h_send
    exact nomatch h_send

/-- **What a SCSI Command sends.** WRITE and WRITE SAME have outcomes of their
own; any other command is answered by the kind of what `send` returns. -/
theorem sendsAnswer_scsiCmd (hop : q.bhs.getOpcode = .scsiCmd) (h : serve T fuel c q = .ok c') :
    SendsAnswer T c c' q := by
  by_cases h_write : q.bhs.getCdb.opcode.isWrite = true
  · obtain ⟨c₁, h_serve, h_out⟩ := serve_write (T := T) fuel c ⟨hop, h_write⟩
    obtain rfl := Except.ok.inj (h_serve.symm.trans h)
    exact sendsAnswer_write ⟨hop, h_write⟩ h_out
  obtain ⟨r, s', h_send⟩ := send_of_serve hop h
  by_cases h_same : q.bhs.getCdb.opcode.isWriteSame = true
  · obtain ⟨c₁, h_serve, h_out⟩ := @serve_writeSame _ T fuel c q ⟨hop, h_same⟩
      (sameLoop_of_send ⟨hop, h_same⟩ h_send)
    obtain rfl := Except.ok.inj (h_serve.symm.trans h)
    exact sendsAnswer_writeSame ⟨hop, h_same⟩ h_out
  rw [Bool.not_eq_true] at h_write h_same
  obtain ⟨h_kind, h_sends⟩ := Scsi.send_kind h_write h_same h_send
  have h_before : c.scsi.Sends s' [] := (c.sends_receive q).after h_sends
  have h_wants : ¬ WantsDataOut T c q := not_wantsDataOut_of_other h_write h_same
  cases h_kind with
  -- of the others, the commands are told apart by the answer of `send`
  | status h_data h_stream h_r =>
    have h_serve := serve_of_status hop h_send h_r.inlineData h_r.location h_r.type
    obtain rfl := Except.ok.inj (h_serve.symm.trans h)
    have h_un : ¬ Unanswered T c q := not_unanswered_of_other h_write h_same h_data
    exact sendsAnswer_of_status h_un h_wants h_before _ _
  | @data h_data h_stream d h_empty h_r =>
    obtain ⟨c₁, ps, h_serve, h_ps, h_cases⟩ := serve_of_data hop h_send h_r
    obtain rfl := Except.ok.inj (h_serve.symm.trans h)
    refine ⟨ps, h_before.after h_ps, ?_⟩
    rw [h_empty] at h_cases
    rcases h_cases with ⟨h_none, h_nil⟩ | ⟨h_some, h_ans⟩
    · exact .inl ⟨.noData h_data h_none, h_nil⟩
    · refine .inr ⟨fun h_un => ?_, h_ans.congr (iff_of_false id h_wants)⟩
      cases h_un with
      | noData h_data' h_none => exact h_some h_none
      | notStored h_write' h_check h_fails =>
        exact absurd (h_write.symm.trans h_write') (by simp)
      | miscounted h_same' h_check hd h_count =>
        exact absurd (h_same.symm.trans h_same') (by simp)
      | noTag h_asks h_tag => exact h_wants h_asks
  | stream h_data h_stream h_r h_loc =>
    exact sendsAnswer_streams hop h_stream (not_unanswered_of_other h_write h_same h_data)
      h_wants h

/-! ### When the handling ends -/

variable (T) in
/-- The commands whose handling does not end: two read behind the received data,
and one streams data in segments of no length. -/
inductive NeverEnds (c : Conn β) (q : Pdu) : Prop
  | shortCompare (h_op : q.bhs.getCdb.opcode = .compareAndWrite)
    (h_short : ¬ (c.receive q).scsi.CompareEnds T q.bhs.getCdb q.data)
  | shortList (h_op : q.bhs.getCdb.opcode = .unmap)
    (h_short : ¬ (c.receive q).scsi.UnmapFits T (q.data.drop 8))
  | noRoom (h_stream : c.scsi.Streams T q.bhs.getCdb)
    (h_length : T.nBytes q.bhs.getCdb.range.2 % 2 ^ 32 ≠ 0) (h_expected : q.bhs.getExpDatLen ≠ 0)
    (h_seg : c.ses.maxSegLen = 0) (h_free : c.scsi.lockingStatus T ≠ .lockedOther)
    (h_reads : ReadsForever T q.bhs.getCdb.range.1 c.scsi.disk)

/-- The loop up to the end of the device ends: the address gets greater with
every turn. By induction on how far it is from the largest one. -/
theorem Scsi.writeSameToEnd_ends (isUnmap : Bool) (data : Bytes) (k : ℕ) :
    ∀ (lba : UInt64) (s : Scsi β), 2 ^ 64 - lba.toNat ≤ k →
      ∃ r, writeSameToEnd T isUnmap data (k + 1) lba s = .ok r := by
  induction k with
  | zero =>
    intro lba s h
    have h_lt := lba.toNat_lt
    omega
  | succ k ih =>
    intro lba s h
    rw [writeSameToEnd]
    by_cases h_more : lba < s.getSizeInBlocks T
    swap
    · rw [if_neg h_more]
      exact ⟨_, rfl⟩
    rw [if_pos h_more]
    rcases s.writeSameBlock T isUnmap data lba with ⟨rc, s'⟩
    cases rc with
    | ok =>
      -- below the end of the device the address does not wrap
      have h_size := (s.getSizeInBlocks T).toNat_lt
      have h_lt : lba.toNat < (s.getSizeInBlocks T).toNat := UInt64.lt_iff_toNat_lt.mp h_more
      have h_next : (lba + 1).toNat = lba.toNat + 1 := toNat_add_ofNat (j := 1) (by omega)
      exact ih (lba + 1) s' (by omega)
    | failRw | failLocked | failGeneral | failMismatch => exact ⟨_, rfl⟩

theorem sameLoop_ends (c : Conn β) (q : Pdu) : ∃ r, sameLoop T (2 ^ 64 + 1) c q = .ok r := by
  unfold sameLoop
  split
  · exact Scsi.writeSameToEnd_ends q.unmaps q.data (2 ^ 64) q.lba _ (Nat.sub_le _ _)
  · exact ⟨_, rfl⟩

theorem replyToFailure_isOk (c : Conn β) (q : Pdu) (ifr : FailReason) :
    ∃ c', (replyToFailure T c (some q) ifr).map (·.2) = .ok c' := by
  obtain ⟨r, c', evs, h, -⟩ := replyToFailure_quiet (T := T) c q ifr
  exact ⟨c', by rw [h]; rfl⟩

/-- A READ whose streaming ends has ended. When there is nothing to send the
loop is not even entered. -/
theorem serve_streams_isOk_iff (hop : q.bhs.getOpcode = .scsiCmd)
    (hs : c.scsi.Streams T q.bhs.getCdb) (fuel : ℕ) :
    (∃ c', serve T fuel c q = .ok c') ↔ (streamParamsOf T c q).offsetEnd = 0 ∨
      ∃ r, streamLoop T (streamParamsOf T c q) fuel .ok 0 q.bhs.getCdb.range.1 (c.receive q) =
        .ok r := by
  rw [serve_of_streams hop hs, streamData_eq]
  by_cases h_zero : (streamParamsOf T c q).offsetEnd = 0
  · rw [if_pos h_zero]
    exact iff_of_true (replyToFailure_isOk _ q _) (.inl h_zero)
  · rw [if_neg h_zero, or_iff_right h_zero]
    cases streamLoop T (streamParamsOf T c q) fuel .ok 0 q.bhs.getCdb.range.1 (c.receive q) with
    | error f => exact iff_of_false (fun ⟨_, h⟩ => nomatch h) fun ⟨_, h⟩ => nomatch h
    | ok r => exact iff_of_true (replyToFailure_isOk r.2 q r.1) ⟨r, rfl⟩

theorem bufferN_pos (history : List Event) : 0 < bufferN T history := by
  have h := T.build.maxDataSegmentSize_pos
  unfold bufferN
  split
  · exact h.trans_le (le_max_left _ _)
  · exact h

/-- A READ ends unless it is stuck: unless there is something to send, no room
to send it, and no read that fails. -/
theorem exists_serve_streams_iff (h_conn : T.Connected) (hop : q.bhs.getOpcode = .scsiCmd)
    (hs : c.scsi.Streams T q.bhs.getCdb) :
    (∃ fuel c', serve T fuel c q = .ok c') ↔ ¬ NeverEnds T c q := by
  -- of the three cases only one is about READs
  have h_stuck : NeverEnds T c q ↔ T.nBytes q.bhs.getCdb.range.2 % 2 ^ 32 ≠ 0 ∧
      q.bhs.getExpDatLen ≠ 0 ∧ c.ses.maxSegLen = 0 ∧ c.scsi.lockingStatus T ≠ .lockedOther ∧
      ReadsForever T q.bhs.getCdb.range.1 c.scsi.disk := by
    constructor
    · intro h
      cases h with
      | shortCompare h_op h_short => rcases hs.1 with h | h | h | h <;> simp [h] at h_op
      | shortList h_op h_short => rcases hs.1 with h | h | h | h <;> simp [h] at h_op
      | noRoom h₁ h₂ h₃ h₄ h₅ h₆ => exact ⟨h₂, h₃, h₄, h₅, h₆⟩
    · rintro ⟨h₂, h₃, h₄, h₅, h₆⟩
      exact .noRoom hs h₂ h₃ h₄ h₅ h₆
  simp only [serve_streams_isOk_iff hop hs, h_stuck]
  by_cases h_zero : (streamParamsOf T c q).offsetEnd = 0
  · refine iff_of_true ⟨0, .inl h_zero⟩ fun h => ?_
    rcases (offsetEnd_streamParamsOf c q).mp h_zero with h' | h'
    · exact h.1 h'
    · exact h.2.1 h'
  have h_left := mt (offsetEnd_streamParamsOf c q).mpr h_zero
  have h_more : 0 < (streamParamsOf T c q).offsetEnd := UInt32.pos_iff_ne_zero.mpr h_zero
  push Not at h_left
  simp only [h_zero, false_or, ne_eq, h_left.1, h_left.2, not_false_eq_true, true_and]
  by_cases hl : c.scsi.lockingStatus T = .lockedOther
  · obtain ⟨c', h_loop, -⟩ := streamLoop_locked (T := T) (c := c.receive q) hl h_more one_pos
      q.bhs.getCdb.range.1
    exact iff_of_true ⟨1, _, h_loop⟩ fun h => h.2.1 hl
  by_cases h_seg : c.ses.maxSegLen = 0
  · rw [streamLoop_isOk_of_zero (c := c.receive q) h_conn h_more h_seg hl]
    simp [h_seg, hl]
  · refine iff_of_true ⟨_, streamLoop_isOk_of_pos (c := c.receive q) (bufferN_pos _) ?_
      (Nat.lt_succ_self _)⟩ fun h => h_seg h.1
    exact Nat.pos_of_ne_zero fun h => h_seg (UInt32.toNat_inj.mp h)

/-- **When the handling of a SCSI Command ends.** What keeps it from ending is a
fault, which no fuel removes, or a READ that is stuck. -/
theorem exists_serve_iff (h_conn : T.Connected) (hop : q.bhs.getOpcode = .scsiCmd) :
    (∃ fuel c', serve T fuel c q = .ok c') ↔ ¬ NeverEnds T c q := by
  by_cases hs : c.scsi.Streams T q.bhs.getCdb
  · exact exists_serve_streams_iff h_conn hop hs
  -- what is not streamed is stuck only where it reads behind its data
  have h_stuck : NeverEnds T c q ↔
      ¬ ((q.bhs.getCdb.opcode = .compareAndWrite →
          (c.receive q).scsi.CompareEnds T q.bhs.getCdb q.data) ∧
        (q.bhs.getCdb.opcode = .unmap → (c.receive q).scsi.UnmapFits T (q.data.drop 8))) := by
    constructor
    · rintro (⟨h_op, h_short⟩ | ⟨h_op, h_short⟩ | ⟨h_stream⟩) ⟨h_compare, h_unmap⟩
      · exact h_short (h_compare h_op)
      · exact h_short (h_unmap h_op)
      · exact hs h_stream
    · intro h
      by_contra h_not
      refine h ⟨fun h_op => ?_, fun h_op => ?_⟩
      · by_contra h_short
        exact h_not (.shortCompare h_op h_short)
      · by_contra h_short
        exact h_not (.shortList h_op h_short)
  rw [h_stuck, not_not]
  by_cases h_write : q.bhs.getCdb.opcode.isWrite = true
  · obtain ⟨c', h_serve, -⟩ := serve_write (T := T) 0 c ⟨hop, h_write⟩
    refine iff_of_true ⟨0, c', h_serve⟩ ?_
    generalize q.bhs.getCdb.opcode = op at h_write
    constructor <;> (rintro rfl; exact nomatch h_write)
  by_cases h_same : q.bhs.getCdb.opcode.isWriteSame = true
  · obtain ⟨r, h_r⟩ := sameLoop_ends (T := T) c q
    obtain ⟨c', h_serve, -⟩ := serve_writeSame (T := T) (c := c) ⟨hop, h_same⟩
      fun _ _ _ => ⟨r, h_r⟩
    refine iff_of_true ⟨_, c', h_serve⟩ ?_
    generalize q.bhs.getCdb.opcode = op at h_same
    constructor <;> (rintro rfl; exact nomatch h_same)
  rw [Bool.not_eq_true] at h_write h_same
  constructor
  · rintro ⟨fuel, c', h⟩
    obtain ⟨r, s', h_send⟩ := send_of_serve hop h
    exact (Scsi.send_isOk_iff h_same).mp ⟨_, h_send⟩
  · intro h
    obtain ⟨⟨r, s'⟩, h_send⟩ :=
      (@Scsi.send_isOk_iff _ T (c.receive q).scsi _ q.bhs.getLunNr 0 q.data h_same).mpr h
    obtain ⟨h_kind, -⟩ := Scsi.send_kind h_write h_same h_send
    cases h_kind with
    | status h_data h_stream h_r =>
      exact ⟨0, _, serve_of_status hop h_send h_r.inlineData h_r.location h_r.type⟩
    | data h_data h_stream h_empty h_r =>
      obtain ⟨c', ps, h_serve, -⟩ := serve_of_data hop h_send h_r
      exact ⟨0, c', h_serve⟩
    | stream h_data h_stream h_r h_loc => exact absurd h_stream hs

/-! ### Exactly one status -/

/-- **Exactly one status for each command.** When no send fails, the handling of
a SCSI Command ends with exactly one status sent, or with an R2T and none,
unless the command is one of those that get no answer or do not end. -/
theorem oneStatus_iff (h_conn : T.Connected) (c : Conn β) (hop : q.bhs.getOpcode = .scsiCmd) :
    (∃ fuel c' ps, serve T fuel c q = .ok c' ∧ c.scsi.Sends c'.scsi ps ∧ OneStatus ps) ↔
      ¬ Unanswered T c q ∧ ¬ NeverEnds T c q := by
  constructor
  · rintro ⟨fuel, c', ps, h, h_ps, h_one⟩
    refine ⟨fun h_un => ?_, (exists_serve_iff h_conn hop).mp ⟨fuel, c', h⟩⟩
    obtain ⟨rs, h_rs, ⟨-, rfl⟩ | ⟨h_answered, -⟩⟩ := sendsAnswer_scsiCmd hop h
    · obtain rfl := h_ps.unique h_rs
      exact absurd h_one (by decide)
    · exact h_answered h_un
  · rintro ⟨h_answered, h_ends⟩
    obtain ⟨fuel, c', h⟩ := (exists_serve_iff h_conn hop).mpr h_ends
    obtain ⟨ps, h_ps, ⟨h_un, -⟩ | ⟨-, h_ans⟩⟩ := sendsAnswer_scsiCmd hop h
    · exact absurd h_un h_answered
    · exact ⟨fuel, c', ps, h, h_ps, h_ans.oneStatus h_conn⟩

/-- READ CAPACITY(10), with room for its eight bytes. -/
def Sample.readCapacity : Pdu := command 5 8 (cdb10 0x25 0 0 0) [] Pdu.nil_lt

theorem oneStatus_readCapacity :
    ∃ fuel c' ps, serve (Sample.target 8) fuel (Sample.conn 8 []) Sample.readCapacity = .ok c' ∧
      (Sample.conn 8 []).scsi.Sends c'.scsi ps ∧ OneStatus ps := by
  refine (oneStatus_iff (fun _ => rfl) _ (by decide)).mpr ⟨fun h => ?_, fun h => ?_⟩
  · rcases h with ⟨-, h⟩ | ⟨h, -⟩ | ⟨h, -⟩ | ⟨⟨-, -, h | h⟩, -⟩
    · exact absurd h (by decide)
    · exact absurd h (by decide)
    · exact absurd h (by decide)
    · exact absurd h.1 (by decide)
    · exact absurd h.1 (by decide)
  · rcases h with ⟨h, -⟩ | ⟨h, -⟩ | ⟨h, -⟩
    · exact absurd h (by decide)
    · exact absurd h (by decide)
    · exact absurd h.1 (by decide)

/-- A WRITE(10) of one block with its data, and a backend that fails: nothing is
ever sent. -/
theorem oneStatus_fails :
    ∃ c', serve (Sample.target 8) 0 (Sample.conn 8 [false])
        (Sample.command 5 16 (Sample.cdb10 0x2a 0 2 1) (Sample.block 7)) = .ok c' ∧
      (Sample.conn 8 [false]).scsi.Sends c'.scsi [] ∧ ¬ OneStatus [] := by
  obtain ⟨c', h_serve, h_sent⟩ := Machine.exists_ok_of_any
    (P := fun c' => sentPdus c'.scsi.history = [])
    (r := serve (Sample.target 8) 0 (Sample.conn 8 [false])
      (Sample.command 5 16 (Sample.cdb10 0x2a 0 2 1) (Sample.block 7))) (by decide +kernel)
  exact ⟨c', h_serve, ⟨c'.scsi.history, rfl, h_sent⟩, by decide⟩

end IscsiTarget
