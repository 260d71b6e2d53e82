import IscsiTarget.Answers.Status
import IscsiTarget.Write.DataOut

/-!
# What one PDU makes the target send

`sends_command` is about the PDUs with a CmdSN of their own, `sends_dataOut` about Data-Outs
and `sends_nothing` about the rest. A command is answered with its own sequence numbers, the
Logout with slightly different ones. A Data-Out that ends a burst is answered with those of the
WRITE it belongs to, and one that ends in an I/O error with its own.
-/

namespace IscsiTarget

variable {β : Type} {T : Target β} {fuel : ℕ} {c c' : Conn β} {q : Pdu}

/-! ### Commands -/

/-- The PDUs of the initiator that carry a CmdSN, after login. -/
def BhsOpcode.isCommand : BhsOpcode → Bool
  | .nopOut | .scsiCmd | .scsiTaskman | .textReq | .logoutReq => true
  | .loginReq | .scsiDataOut | .r2t | .other => false

/-- A Text Request without text, or with a key that has no value. -/
def TextUnanswered (q : Pdu) : Prop :=
  q.data = [] ∨ ∃ kv ∈ dataToTextArray q.data, (split kv (ascii "=")).length < 2

instance (q : Pdu) : Decidable (TextUnanswered q) := by unfold TextUnanswered; infer_instance

variable (T) in
/-- The command gets no answer. -/
def Silent (c : Conn β) (q : Pdu) : Prop :=
  q.bhs.getOpcode = .scsiCmd ∧ Unanswered T c q ∨
    q.bhs.getOpcode = .textReq ∧ TextUnanswered q

variable (T) in
/-- The status of the command is put off until its data has come. -/
def PutOff (c : Conn β) (q : Pdu) : Prop :=
  q.bhs.getOpcode = .scsiCmd ∧ WantsDataOut T c q

variable (T) in
/-- The sequence numbers of the answer to a command. -/
def answerNumbers (q : Pdu) : Numbers :=
  if q.bhs.getOpcode = .logoutReq then (logoutReplySet q.bhs).numbers else numbersFor T q.bhs

theorem statSN_answerNumbers (q : Pdu) : (answerNumbers T q).statSN = q.bhs.getExpStatSN := by
  unfold answerNumbers
  split <;> rfl

/-- One PDU object that becomes one PDU. It is sent, or its send fails and the
connection is lost; the handler adds nothing. -/
theorem serve_of_one {r : Reply} {p : PduOut} {c₁ : Conn β}
    (hop : q.bhs.getOpcode ≠ .scsiDataOut)
    (hget : getResponse T fuel (c.receive q) q = .ok (some { responses := [r] }, c₁))
    (hr : r.get T c₁.ses = ([p], c₁.ses)) : serve T fuel c q = .ok (c₁.emit T p) := by
  have hget' : getResponse T fuel { c with scsi := c.scsi.note (.received q) } q =
    .ok (some { responses := [r] }, c₁) := hget
  have h_emit : emitReplies T [r] .ok c₁ = (sendReason (T.send c₁.scsi.history), c₁.emit T p) := by
    rw [emitReplies, hr]
    rfl
  -- one send, whose result is the only thing that can go wrong
  have h_push : pushResponse T fuel c q =
      .ok (sendReason (T.send c₁.scsi.history), c₁.emit T p) := by
    rw [pushResponse, if_neg hop, hget']
    simp only [finishResponse, emitResponseSet, h_emit]
  unfold serve
  rw [h_push]
  simp only [replyToFailure_sendReason]
  rfl

/-- No PDU object at all. -/
theorem serve_of_none (hop : q.bhs.getOpcode ≠ .scsiDataOut)
    (hget : getResponse T fuel (c.receive q) q = .ok (none, c.receive q)) :
    serve T fuel c q = .ok (c.receive q) := by
  have hget' : getResponse T fuel { c with scsi := c.scsi.note (.received q) } q =
    .ok (none, c.receive q) := hget
  have h_push : pushResponse T fuel c q = .ok (.ok, c.receive q) := by
    rw [pushResponse, if_neg hop, hget']
    rfl
  unfold serve
  rw [h_push]
  rfl

theorem textReply_eq_none_iff (q : Pdu) : TextReplyPdu.set T q = none ↔ TextUnanswered q := by
  unfold TextReplyPdu.set TextUnanswered
  by_cases hd : q.data = []
  · simp [hd]
  rw [if_neg hd, or_iff_right hd]
  simp

/-- The PDU objects of the commands other than the SCSI Command: there is one,
and it makes one PDU with the numbers of the command. -/
theorem getResponse_command (hop : q.bhs.getOpcode.isCommand = true)
    (h_scsi : q.bhs.getOpcode ≠ .scsiCmd) (h_silent : ¬ Silent T c q) :
    ∃ r p c₁, getResponse T fuel (c.receive q) q = .ok (some { responses := [r] }, c₁) ∧
      r.get T c₁.ses = ([p], c₁.ses) ∧ c₁.scsi.history = (c.receive q).scsi.history ∧
      p.bearsStatus = true ∧ p.asDataIn = none ∧ p.numbers = some (answerNumbers T q) := by
  have h_numbers : q.bhs.getOpcode ≠ .logoutReq → answerNumbers T q = numbersFor T q.bhs :=
    fun h => if_neg h
  -- one PDU object for each class that has a `get_response`
  cases h_op : q.bhs.getOpcode with
  | nopOut =>
    refine ⟨.nopIn (.set T q), .nopIn (.set T q), c.receive q, ?_, rfl, rfl, rfl, rfl, ?_⟩
    · rw [getResponse, h_op]
    · rw [h_numbers (by simp [h_op])]
      rfl
  | scsiCmd => exact absurd h_op h_scsi
  | scsiTaskman =>
    refine ⟨.taskmanReply (taskmanReplySet T q.bhs), .taskmanReply (taskmanReplySet T q.bhs),
      (taskmanGetResponse T (c.receive q) q).2, ?_, rfl, ?_, rfl, rfl, ?_⟩
    · rw [getResponse, h_op]
      rfl
    · unfold taskmanGetResponse
      dsimp only
      split
      · -- the reset functions give the reservation back
        unfold Scsi.unlockDevice
        split
        · cases (c.receive q).scsi.lockedBy with
          | none => rfl
          | some id => by_cases h : id = T.thread <;> simp [h]
        · rfl
      · rfl
    · rw [h_numbers (by simp [h_op])]
      rfl
  | textReq =>
    -- a Text Request without the right data is the one that gets nothing
    cases h_text : TextReplyPdu.set T q with
    | none => exact absurd (.inr ⟨h_op, (textReply_eq_none_iff q).mp h_text⟩) h_silent
    | some p =>
      refine ⟨.textReply p, .textReply p, c.receive q, ?_, rfl, rfl, rfl, rfl, ?_⟩
      · rw [getResponse, h_op]
        dsimp only
        rw [h_text]
        rfl
      · rw [h_numbers (by simp [h_op])]
        unfold TextReplyPdu.set at h_text
        split at h_text
        · cases h_text
        · dsimp only at h_text
          split at h_text
          · cases h_text
          · rw [← Option.some.inj h_text]
            rfl
  | logoutReq =>
    refine ⟨.logoutReply (logoutReplySet q.bhs), .logoutReply (logoutReplySet q.bhs), c.receive q,
      ?_, rfl, rfl, rfl, rfl, ?_⟩
    · rw [getResponse, h_op]
    · rw [answerNumbers, if_pos h_op]
      rfl
  | loginReq => simp [h_op, BhsOpcode.isCommand] at hop
  | scsiDataOut => simp [h_op, BhsOpcode.isCommand] at hop
  | r2t => simp [h_op, BhsOpcode.isCommand] at hop
  | other => simp [h_op, BhsOpcode.isCommand] at hop

variable (T) in
/-- The PDUs that answer a command: all with the numbers of that command, with
one status at most among them, and none at all when the command is silent. When
the status is not put off until the Data-Outs, a connection that holds sees
exactly one. -/
structure AnswersCommand (c : Conn β) (q : Pdu) (ps : List PduOut) : Prop where
  numbers : ∀ p ∈ ps, p.numbers = some (answerNumbers T q)
  one : ps.countP PduOut.bearsStatus ≤ 1
  eq_nil : ps = [] ↔ Silent T c q
  deferred : PutOff T c q → ps.countP PduOut.bearsStatus = 0
  settled : T.Connected → ¬ Silent T c q → ¬ PutOff T c q → ps.countP PduOut.bearsStatus = 1

/-- **A command** is answered with its own sequence numbers, or not at all. The
SCSI Command and the other commands come together here. -/
theorem sends_command (hop : q.bhs.getOpcode.isCommand = true) (h : serve T fuel c q = .ok c') :
    ∃ ps, c.scsi.Sends c'.scsi ps ∧ AnswersCommand T c q ps := by
  -- a SCSI Command has an account of its own; the other classes make one PDU or none
  by_cases h_scsi : q.bhs.getOpcode = .scsiCmd
  · have h_numbers : answerNumbers T q = numbersFor T q.bhs := if_neg (by simp [h_scsi])
    have h_silent : Silent T c q ↔ Unanswered T c q := by simp [Silent, h_scsi]
    obtain ⟨ps, h_ps, ⟨h_un, rfl⟩ | ⟨h_answered, h_ans⟩⟩ := sendsAnswer_scsiCmd h_scsi h
    · exact ⟨[], h_ps, by simp, by simp, iff_of_true rfl (h_silent.mpr h_un), fun _ => rfl,
        fun _ h' => absurd (h_silent.mpr h_un) h'⟩
    · refine ⟨ps, h_ps, fun p hp => ?_, h_ans.one,
        iff_of_false h_ans.ne_nil (mt h_silent.mp h_answered), fun h' => h_ans.deferred h'.2,
        fun h_conn _ h' => h_ans.settled h_conn fun h_wants => h' ⟨h_scsi, h_wants⟩⟩
      rw [h_numbers]
      exact h_ans.numbers p hp
  have h_dataOut : q.bhs.getOpcode ≠ .scsiDataOut := by
    intro h_op
    simp [h_op, BhsOpcode.isCommand] at hop
  by_cases h_silent : Silent T c q
  · -- a Text Request that is passed over
    obtain ⟨h_op, h_text⟩ : q.bhs.getOpcode = .textReq ∧ TextUnanswered q :=
      h_silent.resolve_left fun h' => h_scsi h'.1
    have h_get : getResponse T fuel (c.receive q) q = .ok (none, c.receive q) := by
      rw [getResponse, h_op]
      dsimp only
      rw [(textReply_eq_none_iff q).mpr h_text]
      rfl
    obtain rfl := Except.ok.inj ((serve_of_none h_dataOut h_get).symm.trans h)
    exact ⟨[], c.sends_receive q, by simp, by simp, iff_of_true rfl h_silent, fun _ => rfl,
      fun _ h' => absurd h_silent h'⟩
  · obtain ⟨r, p, c₁, h_get, h_r, h_history, h_status, -, h_numbers⟩ :=
      @getResponse_command _ T fuel c q hop h_scsi h_silent
    obtain rfl := Except.ok.inj ((serve_of_one h_dataOut h_get h_r).symm.trans h)
    have h_sends := (c.sends_receive q).after (.of_history h_history)
    refine ⟨[p], h_sends.after (c₁.sends_emit p), by simp [h_numbers], List.countP_le_length,
      iff_of_false (List.cons_ne_nil _ _) h_silent, fun h' => absurd h'.1 h_scsi,
      fun _ _ _ => ?_⟩
    simp [h_status]

/-! ### Data-Outs -/

variable (T) in
/-- The Data-Out ends in an I/O error: its data cannot be written, or the sync
after it returns the enumerator that equals `false`. -/
def DataOutFails (c : Conn β) (q : Pdu) : Prop :=
  ∃ session, c.ses.getR2tSesion q.tag = some session ∧ q.data ≠ [] ∧ q.Aligned T.blockSize ∧
    ((writtenDataOut T c q session).1 ≠ .ok ∨ session.fua = true ∧
      ((writtenDataOut T c q session).2.sync T).1.eqFalse = true)

variable (T) in
/-- The Data-Out ends a burst for the session: it has the F bit, and its data,
if there is any, is taken. -/
def EndsBurst (c : Conn β) (q : Pdu) (session : R2tSession) : Prop :=
  c.ses.getR2tSesion q.tag = some session ∧ q.bhs.getF = true ∧
    (q.data = [] ∨ q.Aligned T.blockSize ∧ (writtenDataOut T c q session).1 = .ok ∧
      (session.fua = true → ((writtenDataOut T c q session).2.sync T).1.eqFalse = false))

variable (T) in
/-- The PDUs that answer a Data-Out: nothing as a rule, the report of a failed
write, or the GOOD that ends the burst. -/
inductive AnswersDataOut (c : Conn β) (q : Pdu) : List PduOut → Prop
  | nothing (h_fails : ¬ DataOutFails T c q) (h_ends : ∀ session, ¬ EndsBurst T c q session) :
    AnswersDataOut c q []
  | ioError (h_fails : DataOutFails T c q) (h_ends : ∀ session, ¬ EndsBurst T c q session) :
    AnswersDataOut c q [ioErrorPdu T q]
  | good {session : R2tSession} {ps : List PduOut} (h_fails : ¬ DataOutFails T c q)
    (h_ends : EndsBurst T c q session) (h_ne : ps ≠ [])
    (h_numbers : ∀ p ∈ ps, p.numbers = some (numbersFor T session.pduInitiator))
    (h_status : ps.countP PduOut.bearsStatus = 1) : AnswersDataOut c q ps

theorem sends_closeBatch (c : Conn β) (session : R2tSession) (transferTag : UInt32) :
    ∃ ps, c.scsi.Sends (closeBatch T c session transferTag).scsi ps ∧ ps ≠ [] ∧
      (∀ p ∈ ps, p.numbers = some (numbersFor T session.pduInitiator)) ∧
      ps.countP PduOut.bearsStatus = 1 := by
  unfold closeBatch
  have h_good : (goodPdu T session).numbers = some (numbersFor T session.pduInitiator) := rfl
  have h_rest : (restPdu T session transferTag).numbers =
    some (numbersFor T session.pduInitiator) := rfl
  split
  · exact ⟨_, Conn.sends_emit _ _, List.cons_ne_nil _ _, by simp [h_good], rfl⟩
  split
  · exact ⟨_, (c.sends_emit _).trans (Conn.sends_emit _ _), by simp, by simp [h_good, h_rest], rfl⟩
  · exact ⟨_, c.sends_emit _, List.cons_ne_nil _ _, by simp [h_good], rfl⟩

theorem sends_writtenDataOut (c : Conn β) (q : Pdu) (session : R2tSession) :
    c.scsi.Sends (writtenDataOut T c q session).2 [] :=
  (c.sends_receive q).after ((transfers_writtenDataOut c q session).elim fun _ h => h.sends)

/-- A Data-Out that is taken sends nothing before the burst ends, and belongs to
the same command afterwards. -/
theorem Delivered.sends {session session' : R2tSession}
    (h : Delivered T c q session session' c') :
    c.scsi.Sends c'.scsi [] ∧ session'.pduInitiator = session.pduInitiator := by
  cases h with
  | empty hd => exact ⟨c.sends_receive q, rfl⟩
  | data hd halign hwritten hsync =>
    exact ⟨(sends_writtenDataOut c q session).after (Scsi.sends_syncedIf _ _), rfl⟩

/-- **A Data-Out** is answered when it ends in an I/O error or ends a burst. In
the first case under its own header, in the second under that of the command. -/
theorem sends_dataOut (hop : q.bhs.getOpcode = .scsiDataOut) (h : serve T fuel c q = .ok c') :
    ∃ ps, c.scsi.Sends c'.scsi ps ∧ AnswersDataOut T c q ps := by
  obtain ⟨c₁, h_serve, h_out⟩ := serve_dataOut (T := T) fuel c hop
  obtain rfl := Except.ok.inj (h_serve.symm.trans h)
  have h_receive := c.sends_receive q
  cases h_out with
  -- no R2T session, so nothing that could fail or end
  | unknown hses =>
    refine ⟨[], h_receive, .nothing ?_ ?_⟩
    · rintro ⟨session, h_ses, -⟩
      exact absurd (hses.symm.trans h_ses) (by simp)
    · rintro session ⟨h_ses, -⟩
      exact absurd (hses.symm.trans h_ses) (by simp)
  | @refused session hses hbad =>
    refine ⟨[], h_receive, .nothing ?_ ?_⟩
    · rintro ⟨session', h_ses, hd, halign, -⟩
      rcases hbad with h' | h'
      · exact hd h'.1
      · exact h'.2 halign
    · rintro session' ⟨h_ses, hF, h_taken⟩
      rcases hbad with h' | h'
      · exact absurd (hF.symm.trans h'.2) (by simp)
      · rcases h_taken with hd | ⟨halign, -⟩
        · exact h'.1 hd
        · exact h'.2 halign
  -- one SCSI Response, for the failure
  | @writeFailed session hses hd halign hwritten =>
    refine ⟨_, (sends_writtenDataOut c q session).after (Conn.sends_emit _ _),
      .ioError ⟨session, hses, hd, halign, .inl hwritten⟩ ?_⟩
    rintro session' ⟨h_ses, hF, h_taken⟩
    obtain rfl := Option.some.inj (hses.symm.trans h_ses)
    rcases h_taken with hd' | ⟨-, hwritten', -⟩
    · exact hd hd'
    · exact hwritten hwritten'
  -- the same after a sync, whose result is taken for a failure
  | @syncFalse session hses hd halign hwritten hfua hsync =>
    refine ⟨_, ((sends_writtenDataOut c q session).after (Scsi.sends_sync _)).after
      (Conn.sends_emit _ _), .ioError ⟨session, hses, hd, halign, .inr ⟨hfua, hsync⟩⟩ ?_⟩
    rintro session' ⟨h_ses, hF, h_taken⟩
    obtain rfl := Option.some.inj (hses.symm.trans h_ses)
    rcases h_taken with hd' | ⟨-, -, hsync'⟩
    · exact hd hd'
    · exact absurd (hsync.symm.trans (hsync' hfua)) (by simp)
  -- stored, and the burst goes on
  | @delivered session session' c₂ hses hd hdel hF =>
    refine ⟨[], hdel.sends.1, .nothing ?_ ?_⟩
    · rintro ⟨session₁, h_ses, -, -, h_fails⟩
      obtain rfl := Option.some.inj (hses.symm.trans h_ses)
      cases hdel with
      | empty hd' => exact hd hd'
      | data _ halign hwritten hsync =>
        rcases h_fails with h' | h'
        · exact h' hwritten
        · exact absurd (h'.2.symm.trans (hsync h'.1)) (by simp)
    · rintro session₁ ⟨-, hF', -⟩
      exact absurd (hF.symm.trans hF') (by simp)
  -- stored, and the burst is closed
  | @finished session session' c₂ hses hdel hF =>
    obtain ⟨ps, h_ps, h_ne, h_numbers, h_status⟩ := sends_closeBatch (T := T) c₂ session' q.tag
    obtain ⟨h_before, h_same⟩ := hdel.sends
    rw [h_same] at h_numbers
    refine ⟨ps, h_before.after h_ps,
      @AnswersDataOut.good _ T c q session ps ?_ ⟨hses, hF, ?_⟩ h_ne h_numbers h_status⟩
    · rintro ⟨session₁, h_ses, hd, -, h_fails⟩
      obtain rfl := Option.some.inj (hses.symm.trans h_ses)
      cases hdel with
      | empty hd' => exact hd hd'
      | data _ halign hwritten hsync =>
        rcases h_fails with h' | h'
        · exact h' hwritten
        · exact absurd (h'.2.symm.trans (hsync h'.1)) (by simp)
    · cases hdel with
      | empty hd => exact .inl hd
      | data _ halign hwritten hsync => exact .inr ⟨halign, hwritten, hsync⟩

/-! ### The rest -/

/-- PDUs that are the target's to send are passed over. -/
theorem sends_nothing (hop : q.bhs.getOpcode = .r2t ∨ q.bhs.getOpcode = .other)
    (h : serve T fuel c q = .ok c') : c.scsi.Sends c'.scsi [] := by
  have h_get : getResponse T fuel (c.receive q) q = .ok (none, c.receive q) := by
    rcases hop with h_op | h_op <;> rw [getResponse, h_op]
  have h_dataOut : q.bhs.getOpcode ≠ .scsiDataOut := by
    rcases hop with h_op | h_op <;> simp [h_op]
  obtain rfl := Except.ok.inj ((serve_of_none h_dataOut h_get).symm.trans h)
  exact c.sends_receive q

end IscsiTarget
