import IscsiTarget.Io

/-!
# Emitting answers

`push_response` and the handler send one PDU object after the other. For the
answers WRITE and Data-Out give, that is one or two PDUs whose `get` leaves the
session alone, and the error branch of the handler has nothing to add, whether
the sends succeed or not. `Conn.emit` is the sending of one PDU, and
`serve_of_reply` takes a SCSI Command from the answer of `scsi::send` to the
state the connection is left in.
-/

namespace IscsiTarget

variable {β : Type} {T : Target β}

namespace Conn

variable (c : Conn β)

/-- A PDU arrives at `push_response`. -/
def receive (q : Pdu) : Conn β := { c with scsi := c.scsi.note (.received q) }

variable (T) in
/-- The connection after sending one PDU. -/
def emit (p : PduOut) : Conn β :=
  { c with scsi := c.scsi.note (.sent p (T.send c.scsi.history)) }

@[simp] theorem receive_ses (q : Pdu) : (c.receive q).ses = c.ses := rfl

@[simp] theorem receive_disk (q : Pdu) : (c.receive q).scsi.disk = c.scsi.disk := rfl

@[simp] theorem receive_history (q : Pdu) :
    (c.receive q).scsi.history = c.scsi.history ++ [.received q] := rfl

@[simp] theorem emit_ses (p : PduOut) : (c.emit T p).ses = c.ses := rfl

@[simp] theorem emit_disk (p : PduOut) : (c.emit T p).scsi.disk = c.scsi.disk := rfl

@[simp] theorem emit_history (p : PduOut) :
    (c.emit T p).scsi.history = c.scsi.history ++ [.sent p (T.send c.scsi.history)] := rfl

@[simp] theorem lockingStatus_receive (q : Pdu) :
    (c.receive q).scsi.lockingStatus T = c.scsi.lockingStatus T := rfl

@[simp] theorem lockingStatus_emit (p : PduOut) :
    (c.emit T p).scsi.lockingStatus T = c.scsi.lockingStatus T := rfl

end Conn

/-- `c'` comes after `c`: the trace has got longer, the reservation is what it
was. -/
def Conn.Extends (c c' : Conn β) : Prop := ∃ evs, c.scsi.Does c'.scsi evs

namespace Conn.Extends

variable {c c₁ c₂ c₃ : Conn β}

theorem refl (c : Conn β) : c.Extends c := ⟨[], .refl _⟩

theorem trans (h₁ : c₁.Extends c₂) (h₂ : c₂.Extends c₃) : c₁.Extends c₃ := by
  obtain ⟨es, hes⟩ := h₁
  obtain ⟨fs, hfs⟩ := h₂
  exact ⟨_, hes.trans hfs⟩

theorem history_le (h : c₁.Extends c₂) : c₁.scsi.history <+: c₂.scsi.history := by
  obtain ⟨es, hes⟩ := h
  exact ⟨es, hes.history.symm⟩

theorem lockingStatus (h : c₁.Extends c₂) :
    c₂.scsi.lockingStatus T = c₁.scsi.lockingStatus T := by
  obtain ⟨es, hes⟩ := h
  exact hes.lockingStatus

theorem receive (c : Conn β) (q : Pdu) : c.Extends (c.receive q) := ⟨_, Scsi.does_note _⟩

theorem emit (c : Conn β) (p : PduOut) : c.Extends (c.emit T p) := ⟨_, Scsi.does_note _⟩

/-- The state of `scsi` moves on, and the session becomes another one. -/
theorem move (h : c₁.Extends c₂) {s' : Scsi β} (hs : ∃ evs, c₂.scsi.Does s' evs) (ses : Session) :
    c₁.Extends { scsi := s', ses := ses } := by
  obtain ⟨es, hes⟩ := h
  obtain ⟨fs, hfs⟩ := hs
  exact ⟨_, hes.trans hfs⟩

end Conn.Extends

/-! ### Response sets of SCSI Responses and R2Ts -/

/-- The PDU of an object that always becomes one PDU, as WRITE and Data-Out use
them. -/
def Reply.single : Reply → Option PduOut
  | .scsiResponse p => some (.scsiResponse p)
  | .r2t p => some (.r2t p)
  | _ => none

/-- A failed send is the only thing that can go wrong. -/
def sendReason (ok : Bool) : FailReason := if ok then .ok else .connection

theorem Reply.get_single {r : Reply} {p : PduOut} (h : r.single = some p) (ses : Session) :
    r.get T ses = ([p], ses) := by
  cases r with
  | scsiResponse p' => simp_all [Reply.single, Reply.get]
  | r2t p' => simp_all [Reply.single, Reply.get]
  | dataIn _ _ => simp [Reply.single] at h
  | nopIn _ => simp [Reply.single] at h
  | loginReply _ => simp [Reply.single] at h
  | textReply _ => simp [Reply.single] at h
  | logoutReply _ => simp [Reply.single] at h
  | taskmanReply _ => simp [Reply.single] at h

/-- Sending one PDU object, and going on with the rest. -/
theorem emitReplies_cons_single {r : Reply} {p : PduOut} (h : r.single = some p)
    (rs : List Reply) (c : Conn β) :
    emitReplies T (r :: rs) .ok c =
      emitReplies T rs (sendReason (T.send c.scsi.history)) (c.emit T p) := by
  rw [emitReplies, Reply.get_single h]
  simp only [emitPdus, sendPdu, if_true]
  rfl

/-- After a send that failed nothing more is sent. -/
theorem emitReplies_connection_single {r : Reply} {p : PduOut} (h : r.single = some p)
    (c : Conn β) : emitReplies T [r] .connection c = (.connection, c) := by
  rw [emitReplies, Reply.get_single h]
  rfl

/-- One PDU object. -/
theorem emitReplies_single {r : Reply} {p : PduOut} (h : r.single = some p) (c : Conn β) :
    emitReplies T [r] .ok c = (sendReason (T.send c.scsi.history), c.emit T p) :=
  emitReplies_cons_single h [] c

/-- Two PDU objects. -/
theorem emitReplies_pair {r u : Reply} {p v : PduOut} (h₁ : r.single = some p)
    (h₂ : u.single = some v) (c : Conn β) :
    emitReplies T [r, u] .ok c =
      if T.send c.scsi.history then
        (sendReason (T.send (c.emit T p).scsi.history), (c.emit T p).emit T v)
      else (.connection, c.emit T p) := by
  rw [emitReplies_cons_single h₁]
  split
  · next h => rw [h, sendReason, if_pos rfl, emitReplies_single h₂]
  · next h => rw [sendReason, if_neg h, emitReplies_connection_single h₂]

/-- The handler has nothing to add to a send, whether it worked or not. -/
theorem replyToFailure_sendReason (c : Conn β) (pdu : Option Pdu) (ok : Bool) :
    replyToFailure T c pdu (sendReason ok) = .ok (.notNeeded, c) := by
  cases ok <;> rfl

theorem replyToFailure_connection (c : Conn β) (pdu : Option Pdu) :
    replyToFailure T c pdu .connection = .ok (.notNeeded, c) := rfl

theorem replyToFailure_ok (c : Conn β) (pdu : Option Pdu) :
    replyToFailure T c pdu .ok = .ok (.notNeeded, c) := rfl

/-- An I/O error is answered with a SCSI Response of its own. -/
theorem replyToFailure_ioError (c : Conn β) (q : Pdu) :
    replyToFailure T c (some q) .ioError =
      .ok (.sent (T.send c.scsi.history),
        c.emit T (.scsiResponse (.set T q.bhs errorReadError none (some 0x09)))) := rfl

/-- No reject can be made of a Data-Out, so a refused one is passed over. -/
theorem replyToFailure_invalidField_dataOut (c : Conn β) {q : Pdu}
    (hop : q.bhs.getOpcode = .scsiDataOut) :
    replyToFailure T c (some q) .invalidField = .ok (.skipped, c) := by
  simp [replyToFailure, buildReject, generateRejectPdu, Pdu.get, hop]

/-! ### A SCSI Command without data to return -/

/-- What a SCSI Command leaves behind whose answer is at most one PDU. -/
def Conn.answer (T : Target β) (c : Conn β) : Option PduOut → Conn β
  | none => c
  | some p => c.emit T p

/-- The response set of a command without inline data and without a stream. -/
theorem scsiCmdGetResponse_of_reply {fuel : ℕ} {c : Conn β} {q : Pdu} {reply : ScsiResponse}
    {scsi' : Scsi β}
    (hsend : c.scsi.send T fuel q.bhs.getLunNr q.bhs.getCdb q.data = .ok (reply, scsi'))
    (hinline : reply.inlineData = none) (hloc : reply.location.nSectors = 0)
    {second : Option Reply} {c' : Conn β} {ok : Bool}
    (hstatus : statusReply T { c with scsi := scsi' } q.bhs reply = .ok (second, c', ok)) :
    scsiCmdGetResponse T fuel c q =
      .ok (if ok then some { responses := second.toList } else none, c') := by
  unfold scsiCmdGetResponse
  rw [hsend]
  simp only [hstatus, hinline, hloc]
  cases ok <;> simp

/-- `push_response` and the handler, once `get_response` is known. What is left
is to send the PDUs it has built and to deal with a failure of that. -/
theorem serve_of_getResponse {fuel : ℕ} {c c' : Conn β} {q : Pdu}
    (hop : q.bhs.getOpcode = .scsiCmd) {answer : Option Reply} {ok : Bool}
    (hget : scsiCmdGetResponse T fuel (c.receive q) q =
      .ok (if ok then some { responses := answer.toList } else none, c'))
    {p : Option PduOut} (hp : p = if ok then answer.bind Reply.single else none)
    (hsingle : ∀ r, answer = some r → (Reply.single r).isSome = true) :
    serve T fuel c q = .ok (c'.answer T p) := by
  have hget' : getResponse T fuel { c with scsi := c.scsi.note (.received q) } q =
      .ok (if ok then some { responses := answer.toList } else none, c') := by
    rw [← hget, getResponse, hop]
    rfl
  have hpush : pushResponse T fuel c q =
      finishResponse T fuel q (if ok then some { responses := answer.toList } else none, c') := by
    rw [pushResponse, if_neg (by simp [hop]), hget']
  subst hp
  unfold serve
  rw [hpush]
  cases ok with
  | false => rfl
  | true =>
    cases answer with
    | none => rfl
    | some r =>
      obtain ⟨p, hr⟩ := Option.isSome_iff_exists.mp (hsingle r rfl)
      simp [finishResponse, emitResponseSet, emitReplies_single hr, replyToFailure_sendReason,
        Conn.answer, Except.map, hr]

/-- **From the answer of `scsi::send` to the end of the command**, for commands
that return no data: the second PDU of the response set is all there is. -/
theorem serve_of_reply {fuel : ℕ} {c : Conn β} {q : Pdu} (hop : q.bhs.getOpcode = .scsiCmd)
    {reply : ScsiResponse} {scsi' : Scsi β}
    (hsend : (c.receive q).scsi.send T fuel q.bhs.getLunNr q.bhs.getCdb q.data =
      .ok (reply, scsi'))
    (hinline : reply.inlineData = none) (hloc : reply.location.nSectors = 0)
    {second : Option Reply} {c' : Conn β} {ok : Bool}
    (hstatus : statusReply T { c with scsi := scsi' } q.bhs reply = .ok (second, c', ok))
    {p : Option PduOut} (hp : p = if ok then second.bind Reply.single else none)
    (hsingle : ∀ r, second = some r → (Reply.single r).isSome = true) :
    serve T fuel c q = .ok (c'.answer T p) :=
  serve_of_getResponse hop
    (scsiCmdGetResponse_of_reply (c := c.receive q) hsend hinline hloc hstatus) hp hsingle

end IscsiTarget
