import IscsiTarget.Answers.Sent

/-!
# What a session keeps

A session has negotiated a segment length, the digests and a burst length. Answering a PDU uses
them and does not touch them: `push_response` hands out DataSNs and edits the table of R2T sessions,
and that is all (`settings_serve`). Only `set_data` of a login changes the settings, before
`push_response` gets to see the login.
-/

namespace IscsiTarget

/-- What a login negotiates, together with `allowDigest`, which is fixed when
the session begins and decides whether the digests count. -/
structure Settings where
  maxSegLen : UInt32
  allowDigest : Bool
  headerDigest : Bool
  dataDigest : Bool
  ackInterval : Option UInt32
  deriving DecidableEq, Repr

namespace Session

variable (ses : Session)

/-- The settings of a session. -/
def settings : Settings where
  maxSegLen := ses.maxSegLen
  allowDigest := ses.allowDigest
  headerDigest := ses.headerDigest
  dataDigest := ses.dataDigest
  ackInterval := ses.ackInterval

@[simp] theorem settings_getIncDatasn (itt : UInt32) :
    (ses.getIncDatasn itt).2.settings = ses.settings := by
  unfold getIncDatasn
  split <;> rfl

@[simp] theorem settings_initR2tSession (rs : R2tSession) (fua : Bool) (pdu : Header)
    (ttt : UInt32) : (ses.initR2tSession rs fua pdu ttt).settings = ses.settings := by
  unfold initR2tSession
  split <;> rfl

@[simp] theorem settings_setR2tSession (ttt : UInt32) (rs : R2tSession) :
    (ses.setR2tSession ttt rs).settings = ses.settings := rfl

@[simp] theorem settings_removeR2tSession (ttt : UInt32) :
    (ses.removeR2tSession ttt).settings = ses.settings := rfl

variable {ses} {ses' : Session}

/-- The header digests in use are part of the settings. -/
theorem getHeaderDigest_of_settings (h : ses.settings = ses'.settings) :
    ses.getHeaderDigest = ses'.getHeaderDigest := by
  unfold getHeaderDigest
  rw [show ses.headerDigest = ses'.headerDigest from congrArg Settings.headerDigest h,
    show ses.allowDigest = ses'.allowDigest from congrArg Settings.allowDigest h]

/-- And so are the data digests. -/
theorem getDataDigest_of_settings (h : ses.settings = ses'.settings) :
    ses.getDataDigest = ses'.getDataDigest := by
  unfold getDataDigest
  rw [show ses.dataDigest = ses'.dataDigest from congrArg Settings.dataDigest h,
    show ses.allowDigest = ses'.allowDigest from congrArg Settings.allowDigest h]

end Session

section

variable {β : Type} {T : Target β}

/-! ### Emitting the answer -/

theorem settings_dataInGetLoop (replyTo : Header) (data : Bytes) (use nToDo turns count : ℕ)
    (ses : Session) :
    (dataInGetLoop T replyTo data use nToDo turns count ses).2.settings = ses.settings := by
  induction turns generalizing count ses with
  | zero => rfl
  | succ turns ih =>
    rw [dataInGetLoop]
    dsimp only
    split
    · exact (ih (count + 1) _).trans (ses.settings_getIncDatasn _)
    · rfl

theorem settings_get (ses : Session) (r : Reply) : (r.get T ses).2.settings = ses.settings := by
  cases r with
  | dataIn replyTo data => exact settings_dataInGetLoop replyTo data _ _ _ 0 ses
  | scsiResponse p => rfl
  | r2t p => rfl
  | nopIn p => rfl
  | loginReply p => rfl
  | textReply p => rfl
  | logoutReply p => rfl
  | taskmanReply p => rfl

theorem settings_emitReplies (rs : List Reply) (ifr : FailReason) (c : Conn β) :
    (emitReplies T rs ifr c).2.ses.settings = c.ses.settings := by
  induction rs generalizing ifr c with
  | nil => rfl
  | cons r rs ih =>
    rw [emitReplies]
    exact (ih _ _).trans (settings_get c.ses r)

/-- A turn hands out one DataSN, whichever way it ends, and that is all that it
changes in the session. By induction on the turns. -/
theorem settings_streamLoop {p : StreamParams} {fuel : ℕ} {ifr : FailReason} {offset : UInt32}
    {lba : UInt64} {c : Conn β} {r : FailReason × Conn β}
    (h : streamLoop T p fuel ifr offset lba c = .ok r) : r.2.ses.settings = c.ses.settings := by
  induction fuel generalizing ifr offset lba c with
  | zero => cases h
  | succ fuel ih =>
    rw [streamLoop] at h
    dsimp only at h
    split at h
    swap
    · obtain rfl := Except.ok.inj h
      rfl
    split at h
    · -- the read has failed
      obtain rfl := Except.ok.inj h
      exact c.ses.settings_getIncDatasn _
    · split at h
      · -- the send has failed
        obtain rfl := Except.ok.inj h
        exact c.ses.settings_getIncDatasn _
      · exact (ih h).trans (c.ses.settings_getIncDatasn _)

theorem settings_streamData {fuel : ℕ} {ifr : FailReason} {c : Conn β} {replyTo : Header}
    {d : DataDescriptor} {r : FailReason × Conn β} (h : streamData T fuel ifr c replyTo d = .ok r) :
    r.2.ses.settings = c.ses.settings := by
  unfold streamData at h
  dsimp only at h
  split at h
  · obtain rfl := Except.ok.inj h
    rfl
  · exact settings_streamLoop h

theorem settings_finishResponse {fuel : ℕ} {q : Pdu} {a : Option ResponseSet × Conn β}
    {r : FailReason × Conn β} (h : finishResponse T fuel q a = .ok r) :
    r.2.ses.settings = a.2.ses.settings := by
  obtain ⟨responseSet, c⟩ := a
  cases responseSet with
  | none =>
    obtain rfl := Except.ok.inj h
    rfl
  | some responseSet =>
    unfold finishResponse emitResponseSet at h
    dsimp only at h
    split at h
    · obtain rfl := Except.ok.inj h
      exact settings_emitReplies _ _ c
    · exact (settings_streamData h).trans (settings_emitReplies _ _ c)

/-! ### Building the answer -/

theorem settings_statusReply {c : Conn β} {replyTo : Header} {reply : ScsiResponse}
    {r : Option Reply × Conn β × Bool} (h : statusReply T c replyTo reply = .ok r) :
    r.2.1.ses.settings = c.ses.settings := by
  unfold statusReply at h
  -- only an R2T changes the session, and that in its table
  split at h
  · split at h <;> (obtain rfl := Except.ok.inj h; rfl)
  · split at h <;> (obtain rfl := Except.ok.inj h; rfl)
  · split at h
    · cases h
    · dsimp only at h
      split at h
      · obtain rfl := Except.ok.inj h
        rfl
      · obtain rfl := Except.ok.inj h
        exact c.ses.settings_initR2tSession _ _ _ _

theorem settings_scsiCmdGetResponse {fuel : ℕ} {c : Conn β} {q : Pdu}
    {r : Option ResponseSet × Conn β} (h : scsiCmdGetResponse T fuel c q = .ok r) :
    r.2.ses.settings = c.ses.settings := by
  unfold scsiCmdGetResponse at h
  split at h
  · cases h
  · split at h
    · cases h
    · next h_status =>
      obtain rfl := Except.ok.inj h
      exact settings_statusReply h_status
    · next h_status =>
      obtain rfl := Except.ok.inj h
      exact settings_statusReply h_status

theorem settings_getResponse {fuel : ℕ} {c : Conn β} {q : Pdu} {r : Option ResponseSet × Conn β}
    (h : getResponse T fuel c q = .ok r) : r.2.ses.settings = c.ses.settings := by
  unfold getResponse at h
  cases hop : q.bhs.getOpcode <;> rw [hop] at h <;> dsimp only at h
  case scsiCmd => exact settings_scsiCmdGetResponse h
  case loginReq =>
    cases h_set : LoginReplyPdu.set T fuel c q.bhs with
    | error f => simp [h_set, Except.map] at h
    | ok p =>
      rw [h_set] at h
      obtain rfl := Except.ok.inj h
      rfl
  -- a reset gives the reservation back, which the session does not hold
  case scsiTaskman =>
    obtain rfl := Except.ok.inj h
    unfold taskmanGetResponse
    dsimp only
    split <;> rfl
  all_goals
    obtain rfl := Except.ok.inj h
    rfl

theorem settings_endOfBatch (c : Conn β) (session : R2tSession) (tag : UInt32) :
    (endOfBatch T c session tag).2.ses.settings = c.ses.settings := by
  unfold endOfBatch
  dsimp only
  split <;> rfl

theorem settings_handleDataOut (c : Conn β) (q : Pdu) :
    (handleDataOut T c q).2.ses.settings = c.ses.settings := by
  unfold handleDataOut
  dsimp only
  split
  · rfl
  · -- data that is stored changes the counters of an R2T session, and the end of a burst its table
    split
    · split
      · rfl
      · split
        · exact settings_endOfBatch _ _ _
        · rfl
    · split
      · exact settings_endOfBatch _ _ _
      · rfl

/-! ### One PDU -/

theorem settings_pushResponse {fuel : ℕ} {c : Conn β} {q : Pdu} {r : FailReason × Conn β}
    (h : pushResponse T fuel c q = .ok r) : r.2.ses.settings = c.ses.settings := by
  unfold pushResponse at h
  dsimp only at h
  split at h
  · -- the Data-Out branch, and then the other classes
    have h_data := settings_handleDataOut (T := T) { c with scsi := c.scsi.note (.received q) } q
    split at h
    · next h_eq =>
      obtain rfl := Except.ok.inj h
      rwa [h_eq] at h_data
    · next h_eq =>
      rw [h_eq] at h_data
      exact (settings_finishResponse h).trans h_data
  · split at h
    · cases h
    · next h_eq =>
      have h_get := settings_getResponse h_eq
      exact (settings_finishResponse h).trans h_get

theorem settings_replyToFailure {c : Conn β} {pdu : Option Pdu} {ifr : FailReason}
    {r : FailureReply × Conn β} (h : replyToFailure T c pdu ifr = .ok r) :
    r.2.ses = c.ses := by
  unfold replyToFailure at h
  split at h
  · split at h
    · cases h
    · obtain rfl := Except.ok.inj h
      rfl
    · obtain rfl := Except.ok.inj h
      rfl
  · obtain rfl := Except.ok.inj h
    rfl

/-- **Answering a PDU keeps the settings.** A login has changed them when it is
answered, while its data was received. -/
theorem settings_serve {fuel : ℕ} {c c' : Conn β} {q : Pdu} (h : serve T fuel c q = .ok c') :
    c'.ses.settings = c.ses.settings := by
  unfold serve at h
  cases h_push : pushResponse T fuel c q with
  | error f => simp [h_push] at h
  | ok r =>
    rw [h_push] at h
    dsimp only at h
    cases h_reply : replyToFailure T r.2 (some q) r.1 with
    | error f => simp [h_reply, Except.map] at h
    | ok reply =>
      rw [h_reply] at h
      obtain rfl := Except.ok.inj h
      -- the failure branch leaves the whole session alone
      rw [settings_replyToFailure h_reply]
      exact settings_pushResponse h_push

end

end IscsiTarget
