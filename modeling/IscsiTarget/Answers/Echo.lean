import IscsiTarget.Answers.Step

/-!
# What an answer answers

A PDU of the target names the task it belongs to by its initiator task tag, and by its kind what
was asked. `pushResponse_serves` says that everything `push_response` sends for a PDU answers this
PDU, or a SCSI Command that the table of R2T sessions keeps for it. The entries of the table are
the headers of SCSI Commands, so `Conn.Serves` carries both along: what is sent, and whose headers
the table holds (`Session.Owned`).
-/

namespace IscsiTarget

/-! ### Answers -/

namespace PduOut

/-- The initiator task tag. That of a reject is the one in the header it gives
back, by which the initiator tells what has been rejected. -/
def itasktag : PduOut → UInt32
  | .scsiResponse p => p.itasktag
  | .dataIn p => p.itasktag
  | .r2t p => p.itasktag
  | .nopIn p => p.itasktag
  | .loginReply p => p.itasktag
  | .textReply p => p.itasktag
  | .logoutReply p => p.itasktag
  | .taskmanReply p => p.itasktag
  | .reject p => p.problemPdu.getItasktag

/-- The opcodes that are answered with such a PDU. A Data-Out whose data cannot
be stored gets a SCSI Response, and only an opcode that is not implemented gets
a reject. -/
def asked : PduOut → List BhsOpcode
  | .scsiResponse _ => [.scsiCmd, .scsiDataOut]
  | .dataIn _ => [.scsiCmd]
  | .r2t _ => [.scsiCmd]
  | .nopIn _ => [.nopOut]
  | .loginReply _ => [.loginReq]
  | .textReply _ => [.textReq]
  | .logoutReply _ => [.logoutReq]
  | .taskmanReply _ => [.scsiTaskman]
  | .reject _ => [.other]

/-- The PDU answers the one with this header. -/
structure Answers (p : PduOut) (h : Header) : Prop where
  kind : h.getOpcode ∈ p.asked
  tag : p.itasktag = h.getItasktag

end PduOut

/-- The entries of the table are the headers of SCSI Commands among `known`. -/
def Session.Owned (ses : Session) (known : Header → Prop) : Prop :=
  ∀ t rs, ses.r2tSessions t = some rs → known rs.pduInitiator ∧ rs.pduInitiator.getOpcode = .scsiCmd

/-- The PDU answers one of the headers. -/
def PduOut.Known (known : Header → Prop) (p : PduOut) : Prop := ∃ h, known h ∧ p.Answers h

section

variable {β : Type} {T : Target β}

/-! ### From one state to another -/

/-- All that is sent has the property. -/
def Scsi.Emits (P : PduOut → Prop) (s s' : Scsi β) : Prop := ∃ ps, s.Sends s' ps ∧ ∀ p ∈ ps, P p

namespace Scsi.Emits

variable {P : PduOut → Prop} {s s₁ s₂ : Scsi β}

theorem of_sends_nil (h : s.Sends s₁ []) : Emits P s s₁ := ⟨[], h, List.forall_mem_nil P⟩

theorem refl (s : Scsi β) : Emits P s s := of_sends_nil (.refl s)

theorem trans (h₁ : Emits P s s₁) (h₂ : Emits P s₁ s₂) : Emits P s s₂ := by
  obtain ⟨ps, h_ps, h_all⟩ := h₁
  obtain ⟨rs, h_rs, h_all'⟩ := h₂
  refine ⟨ps ++ rs, h_ps.trans h_rs, fun p hp => ?_⟩
  rcases List.mem_append.mp hp with hp | hp
  · exact h_all p hp
  · exact h_all' p hp

theorem of_sendPdu {p : PduOut} {ok : Bool} (hp : P p) (h : sendPdu T s p = (ok, s₁)) :
    Emits P s s₁ := by
  obtain ⟨rfl, rfl⟩ := Prod.mk.inj h
  exact ⟨[p], ⟨_, rfl, rfl⟩, List.forall_mem_singleton.mpr hp⟩

theorem sendPdu {p : PduOut} (hp : P p) (s : Scsi β) : Emits P s (sendPdu T s p).2 :=
  of_sendPdu hp rfl

end Scsi.Emits

/-- What is sent answers known headers, and the table stays with known commands. -/
structure Conn.Serves (known : Header → Prop) (c c' : Conn β) : Prop where
  emits : c.scsi.Emits (PduOut.Known known) c'.scsi
  owned : c.ses.Owned known → c'.ses.Owned known

namespace Conn.Serves

variable {known : Header → Prop} {c c₁ c₂ : Conn β}

theorem trans (h₁ : c.Serves known c₁) (h₂ : c₁.Serves known c₂) : c.Serves known c₂ :=
  ⟨h₁.emits.trans h₂.emits, fun h => h₂.owned (h₁.owned h)⟩

/-- Nothing happens to the table. -/
theorem of_table (h : c.scsi.Emits (PduOut.Known known) c₁.scsi)
    (h_table : c₁.ses.r2tSessions = c.ses.r2tSessions) : c.Serves known c₁ := by
  refine ⟨h, fun h_owned t rs h_rs => h_owned t rs ?_⟩
  rwa [← h_table]

theorem refl (c : Conn β) : c.Serves known c := of_table (.refl _) rfl

end Conn.Serves

/-! ### Emitting -/

variable {known : Header → Prop}

theorem emits_emitPdus {P : PduOut → Prop} {ps : List PduOut} (h : ∀ p ∈ ps, P p)
    (ifr : FailReason) (s : Scsi β) : s.Emits P (emitPdus T ps ifr s).2 := by
  induction ps generalizing ifr s with
  | nil => exact .refl s
  | cons p ps ih =>
    rw [List.forall_mem_cons] at h
    unfold emitPdus
    split
    · exact (Scsi.Emits.sendPdu h.1 s).trans (ih h.2 _ _)
    · exact ih h.2 ifr s

@[simp] theorem r2tSessions_getIncDatasn (ses : Session) (itt : UInt32) :
    (ses.getIncDatasn itt).2.r2tSessions = ses.r2tSessions := by
  unfold Session.getIncDatasn
  split <;> rfl

theorem dataInGetLoop_answers (replyTo : Header) (data : Bytes) (use nToDo turns count : ℕ)
    (ses : Session) :
    (∀ p ∈ (dataInGetLoop T replyTo data use nToDo turns count ses).1,
        p.itasktag = replyTo.getItasktag) ∧
      (dataInGetLoop T replyTo data use nToDo turns count ses).2.r2tSessions =
        ses.r2tSessions := by
  induction turns generalizing count ses with
  | zero => exact ⟨List.forall_mem_nil _, rfl⟩
  | succ turns ih =>
    rw [dataInGetLoop]
    dsimp only
    split
    · -- one more PDU, with the tag of the command, and only the DataSN is counted
      obtain ⟨h_tags, h_table⟩ := ih (count + 1) (ses.getIncDatasn replyTo.getItasktag).2
      exact ⟨List.forall_mem_cons.mpr ⟨rfl, h_tags⟩,
        h_table.trans (r2tSessions_getIncDatasn ses _)⟩
    · exact ⟨List.forall_mem_nil _, rfl⟩

/-- All the PDUs of a PDU object answer a known header. -/
def Reply.Known (T : Target β) (known : Header → Prop) (r : Reply) : Prop :=
  ∀ ses, ∀ p ∈ (r.get T ses).1, p.Known known

theorem Reply.r2tSessions_get (ses : Session) (r : Reply) :
    (r.get T ses).2.r2tSessions = ses.r2tSessions := by
  cases r with
  | dataIn replyTo data => exact (dataInGetLoop_answers replyTo data _ _ _ 0 ses).2
  | scsiResponse p => rfl
  | r2t p => rfl
  | nopIn p => rfl
  | loginReply p => rfl
  | textReply p => rfl
  | logoutReply p => rfl
  | taskmanReply p => rfl

theorem serves_emitReplies {rs : List Reply} (h : ∀ r ∈ rs, r.Known T known) (ifr : FailReason)
    (c : Conn β) : c.Serves known (emitReplies T rs ifr c).2 := by
  induction rs generalizing ifr c with
  | nil => exact .refl c
  | cons r rs ih =>
    rw [List.forall_mem_cons] at h
    rw [emitReplies]
    refine Conn.Serves.trans (.of_table ?_ ?_) (ih h.2 _ _)
    · exact emits_emitPdus (h.1 c.ses) ifr c.scsi
    · exact r.r2tSessions_get c.ses

/-- A Data-In of a command. -/
theorem known_dataIn {p : DataInPdu} {h : Header} (h_known : known h)
    (h_op : h.getOpcode = .scsiCmd) (h_tag : p.itasktag = h.getItasktag) :
    (PduOut.dataIn p).Known known :=
  ⟨h, h_known, by rw [h_op]; exact List.mem_singleton_self _, h_tag⟩

/-- A SCSI Response to a command. -/
theorem known_scsiResponse {h : Header} (h_known : known h) (h_op : h.getOpcode = .scsiCmd)
    (sense : Bytes) (residual : Option (Residual × UInt32)) (status : Option UInt8) :
    (PduOut.scsiResponse (.set T h sense residual status)).Known known :=
  ⟨h, h_known, by rw [h_op]; exact List.mem_cons_self, rfl⟩

/-- An R2T for a command. -/
theorem known_r2t {h : Header} (h_known : known h) (h_op : h.getOpcode = .scsiCmd)
    (ttt offset length : UInt32) : (PduOut.r2t (.set T h ttt offset length)).Known known :=
  ⟨h, h_known, by rw [h_op]; exact List.mem_singleton_self _, rfl⟩

/-- The PDU of an object that always becomes one. -/
theorem Reply.known_of_single {r : Reply} {p : PduOut} (h : ∀ ses, (r.get T ses).1 = [p])
    (h_known : p.Known known) : r.Known T known := by
  intro ses p' hp'
  rw [h ses, List.mem_singleton] at hp'
  exact hp' ▸ h_known

/-! ### Streaming -/

theorem serves_streamLoop {p : StreamParams} (h_known : known p.replyTo)
    (h_op : p.replyTo.getOpcode = .scsiCmd) {fuel : ℕ} {ifr : FailReason} {offset : UInt32}
    {lba : UInt64} {c : Conn β} {r : FailReason × Conn β}
    (h : streamLoop T p fuel ifr offset lba c = .ok r) : c.Serves known r.2 := by
  induction fuel generalizing ifr offset lba c with
  | zero => cases h
  | succ fuel ih =>
    have h_read := sends_streamRead (T := T) c.scsi lba (p.currentN c.ses offset)
    rw [streamLoop] at h
    dsimp only at h
    split at h
    swap
    · -- everything has been sent
      obtain rfl := Except.ok.inj h
      exact .refl c
    split at h
    · -- the read has failed
      next h_eq =>
      rw [h_eq] at h_read
      obtain rfl := Except.ok.inj h
      exact .of_table (.of_sends_nil h_read) (r2tSessions_getIncDatasn c.ses _)
    · next payload s' h_eq =>
      rw [h_eq] at h_read
      have h_pdu (ses : Session) (residual : Option (Residual × UInt32)) (last : Bool) :
          (PduOut.dataIn (genDataInPdu T ses p.replyTo residual offset
            (p.currentN c.ses offset) last payload).1).Known known :=
        known_dataIn h_known h_op rfl
      split at h
      · -- the send has failed
        next h_send =>
        obtain rfl := Except.ok.inj h
        exact .of_table ((Scsi.Emits.of_sends_nil h_read).trans (.of_sendPdu (h_pdu _ _ _) h_send))
          (r2tSessions_getIncDatasn c.ses _)
      · next h_send =>
        refine Conn.Serves.trans (.of_table ?_ (r2tSessions_getIncDatasn c.ses _)) (ih h)
        exact (Scsi.Emits.of_sends_nil h_read).trans (.of_sendPdu (h_pdu _ _ _) h_send)

theorem serves_streamData {fuel : ℕ} {ifr : FailReason} {c : Conn β} {replyTo : Header}
    (h_known : known replyTo) (h_op : replyTo.getOpcode = .scsiCmd) {d : DataDescriptor}
    {r : FailReason × Conn β} (h : streamData T fuel ifr c replyTo d = .ok r) :
    c.Serves known r.2 := by
  unfold streamData at h
  dsimp only at h
  split at h
  · -- the buffer could not be allocated, which is answered with one response
    obtain rfl := Except.ok.inj h
    exact .of_table (.sendPdu (known_scsiResponse h_known h_op _ _ _) c.scsi) rfl
  · -- otherwise the loop sends Data-Ins
    refine serves_streamLoop ?_ ?_ h
    · exact h_known
    · exact h_op

/-! ### SCSI Commands -/

namespace Scsi

variable {s : Scsi β} {fuel : ℕ} {cdb : Cdb} {data : Bytes}

theorem sends_writeVerify (s : Scsi β) (cdb : Cdb) (data : Bytes) :
    s.Sends (s.writeVerify T cdb data).2 [] := by
  unfold writeVerify
  dsimp only
  split
  · exact .refl s
  · split
    · -- immediate data is stored, which makes backend calls and sends nothing
      have h_store := sends_storeImmediate (T := T) (s := s) cdb.range.1 cdb.range.2 data
      rcases h_eq : s.storeImmediate T cdb.range.1 cdb.range.2 data with ⟨rc, s'⟩
      rw [h_eq] at h_store
      cases rc with
      | ok =>
        dsimp only
        split
        · exact h_store.after (sends_syncedIf (fuaBit cdb) s')
        · exact h_store
      | failRw => exact h_store
      | failLocked => exact h_store
      | failGeneral => exact h_store
      | failMismatch => exact h_store
    · split <;> exact .refl s

theorem sends_writeSame {x : ScsiResponse × Scsi β} (h : s.writeSame T fuel cdb data = .ok x) :
    s.Sends x.2 [] := by
  -- the end of the command only makes a response of the result
  have h_done (response : ScsiResponse) (y : RwResult × Scsi β) :
      (writeSameDone response y).2 = y.2 := by
    obtain ⟨rc, s'⟩ := y
    cases rc <;> rfl
  unfold writeSame at h
  dsimp only at h
  split at h
  · obtain rfl := Except.ok.inj h
    exact .refl s
  · split at h
    · split at h
      · obtain rfl := Except.ok.inj h
        exact .refl s
      · split at h
        · split at h
          · obtain rfl := Except.ok.inj h
            exact .refl s
          · cases h_end : writeSameToEnd T (getElem cdb 1 Cdb.lt1 &&& 8 != 0) data fuel
                cdb.range.1 s with
            | error f =>
              rw [h_end] at h
              cases h
            | ok y =>
              rw [h_end] at h
              obtain rfl := Except.ok.inj h
              rw [h_done]
              exact sends_writeSameToEnd _ _ _ _ _ h_end
        · obtain rfl := Except.ok.inj h
          rw [h_done]
          exact (writes_writeSameBlocks _ _ _ _ _).elim fun _ h_writes => h_writes.sends
    · split at h
      · obtain rfl := Except.ok.inj h
        exact .refl s
      · obtain rfl := Except.ok.inj h
        exact .refl s

/-- **`send` sends no PDU.** It returns what is to be answered, and leaves the
sending to `push_response`. -/
theorem sends_send {lun : UInt64} {x : ScsiResponse × Scsi β}
    (h : s.send T fuel lun cdb data = .ok x) : s.Sends x.2 [] := by
  cases h_write : cdb.opcode.isWrite with
  | true =>
    rw [send_of_isWrite fuel s lun data h_write] at h
    obtain rfl := Except.ok.inj h
    -- WRITE, in any of its forms
    exact sends_writeVerify s cdb data
  | false =>
    cases h_same : cdb.opcode.isWriteSame with
    | true =>
      -- WRITE SAME
      have h_eq : s.send T fuel lun cdb data = s.writeSame T fuel cdb data := by
        unfold send
        cases h_op : cdb.opcode <;> simp_all [ScsiOpcode.isWriteSame]
      rw [h_eq] at h
      exact sends_writeSame h
    -- all others are told apart where their answers are
    | false => exact (send_kind h_write h_same h).2

end Scsi

/-- One entry of the table is written, or taken out of it. What is known of the
others stays true. -/
theorem Session.Owned.update {ses ses' : Session} (h : ses.Owned known) {ttt : UInt32}
    {entry : Option R2tSession}
    (h_table : ses'.r2tSessions = Function.update ses.r2tSessions ttt entry)
    (h_entry : ∀ rs ∈ entry, known rs.pduInitiator ∧ rs.pduInitiator.getOpcode = .scsiCmd) :
    ses'.Owned known := by
  intro t rs h_rs
  rw [h_table] at h_rs
  by_cases h_t : t = ttt
  · subst h_t
    rw [Function.update_self] at h_rs
    exact h_entry rs h_rs
  · rw [Function.update_of_ne h_t] at h_rs
    exact h t rs h_rs

theorem Session.Owned.initR2tSession {ses : Session} (h : ses.Owned known) {pdu : Header}
    (h_known : known pdu) (h_op : pdu.getOpcode = .scsiCmd) (rs : R2tSession) (fua : Bool)
    (ttt : UInt32) : (ses.initR2tSession rs fua pdu ttt).Owned known := by
  unfold Session.initR2tSession
  split
  · exact h
  · refine h.update rfl fun rs' h_rs => ?_
    obtain rfl := Option.some.inj h_rs
    exact ⟨h_known, h_op⟩

/-- The second PDU of the answer to a SCSI Command: a status, or an R2T, which
the table keeps together with the header of the command. -/
theorem serves_statusReply {c : Conn β} {replyTo : Header} (h_known : known replyTo)
    (h_op : replyTo.getOpcode = .scsiCmd) {reply : ScsiResponse} {second : Option Reply}
    {c' : Conn β} {ok : Bool} (h : statusReply T c replyTo reply = .ok (second, c', ok)) :
    c.Serves known c' ∧ ∀ r ∈ second, r.Known T known := by
  have h_response (sense : Bytes) (residual : Option (Residual × UInt32))
      (status : Option UInt8) :
      (Reply.scsiResponse (.set T replyTo sense residual status)).Known T known :=
    Reply.known_of_single (fun _ => rfl) (known_scsiResponse h_known h_op _ _ _)
  have h_none : ∀ r ∈ (none : Option Reply), r.Known T known := fun r hr => by cases hr
  have h_some {r : Reply} (hr : r.Known T known) : ∀ r' ∈ some r, r'.Known T known :=
    fun r' hr' => Option.some.inj hr' ▸ hr
  unfold statusReply at h
  split at h
  · -- an answer as it is: a response, or the data alone
    split at h <;> obtain ⟨rfl, rfl, rfl⟩ := Except.ok.inj h
    · exact ⟨.refl c, h_some (h_response _ _ _)⟩
    · exact ⟨.refl c, h_none⟩
  · -- the empty sense
    split at h <;> obtain ⟨rfl, rfl, rfl⟩ := Except.ok.inj h
    · exact ⟨.refl c, h_some (h_response _ _ _)⟩
    · exact ⟨.refl c, h_none⟩
  · split at h
    · cases h
    · -- data is to come: the command is kept in the table, or the table has no room for it
      dsimp only at h
      split at h <;> obtain ⟨rfl, rfl, rfl⟩ := Except.ok.inj h
      · exact ⟨.refl c, h_some (h_response _ _ _)⟩
      · refine ⟨⟨.refl c.scsi, fun h_owned => h_owned.initR2tSession h_known h_op _ _ _⟩, ?_⟩
        exact h_some (Reply.known_of_single (fun _ => rfl) (known_r2t h_known h_op _ _ _))

/-- The response set for a PDU: its objects answer known headers, and data is
streamed for SCSI Commands only. -/
structure ResponseSet.Known (T : Target β) (known : Header → Prop) (q : Pdu)
    (set : ResponseSet) : Prop where
  replies : ∀ r ∈ set.responses, r.Known T known
  stream : set.toStream ≠ none → q.bhs.getOpcode = .scsiCmd

/-- An object alone. -/
theorem ResponseSet.known_single {q : Pdu} {r : Reply} (h : r.Known T known) :
    ResponseSet.Known T known q { responses := [r] } :=
  ⟨List.forall_mem_singleton.mpr h, fun h_none => absurd rfl h_none⟩

theorem serves_scsiCmdGetResponse {fuel : ℕ} {c : Conn β} {q : Pdu} (h_known : known q.bhs)
    (h_op : q.bhs.getOpcode = .scsiCmd) {r : Option ResponseSet × Conn β}
    (h : scsiCmdGetResponse T fuel c q = .ok r) :
    c.Serves known r.2 ∧ ∀ set ∈ r.1, ResponseSet.Known T known q set := by
  unfold scsiCmdGetResponse at h
  split at h
  · cases h
  · next reply s' h_send =>
    -- what `send` does is no PDU, and does not touch the table
    have h_quiet : c.scsi.Sends s' [] := Scsi.sends_send h_send
    have h_first : c.Serves known { c with scsi := s' } :=
      .of_table (.of_sends_nil h_quiet) rfl
    split at h
    · cases h
    · next c' h_status =>
      obtain rfl := Except.ok.inj h
      -- the answer has failed, and nothing is sent
      obtain ⟨h_serves, -⟩ := serves_statusReply h_known h_op h_status
      exact ⟨h_first.trans h_serves, fun set hs => by cases hs⟩
    · next second c' h_status =>
      obtain rfl := Except.ok.inj h
      obtain ⟨h_serves, h_second⟩ := serves_statusReply h_known h_op h_status
      refine ⟨h_first.trans h_serves, fun set hs => ?_⟩
      obtain rfl := Option.some.inj hs
      refine ⟨fun r hr => ?_, fun _ => h_op⟩
      rcases List.mem_append.mp hr with hr | hr
      · -- the data in a buffer
        rw [Option.mem_toList] at hr
        obtain ⟨data, -, rfl⟩ := Option.map_eq_some_iff.mp hr
        intro ses p hp
        obtain ⟨d, hd, rfl⟩ := List.mem_map.mp hp
        exact known_dataIn h_known h_op ((dataInGetLoop_answers _ _ _ _ _ _ _).1 d hd)
      · -- the status or the R2T behind the data
        exact h_second r (Option.mem_toList.mp hr)

/-! ### The other classes -/

theorem TextReplyPdu.itasktag_set {q : Pdu} {p : TextReplyPdu}
    (h : TextReplyPdu.set T q = some p) : p.itasktag = q.bhs.getItasktag := by
  unfold TextReplyPdu.set at h
  dsimp only at h
  split at h
  · cases h
  split at h
  · cases h
  rw [← Option.some.inj h]

theorem LoginReplyPdu.itasktag_set {fuel : ℕ} {c : Conn β} {h : Header} {p : LoginReplyPdu}
    (h_set : LoginReplyPdu.set T fuel c h = .ok (some p)) : p.itasktag = h.getItasktag := by
  unfold LoginReplyPdu.set at h_set
  dsimp only at h_set
  cases h_tsih : if h.getNsg = 3 then drawTsih T c.scsi.history fuel 0 else .ok (some 0) with
  | error f =>
    rw [h_tsih] at h_set
    cases h_set
  | ok t =>
    rw [h_tsih] at h_set
    obtain ⟨v, -, rfl⟩ := Option.map_eq_some_iff.mp (Except.ok.inj h_set)
    rfl

theorem serves_taskmanGetResponse (c : Conn β) (q : Pdu) :
    c.Serves known (taskmanGetResponse T c q).2 := by
  unfold taskmanGetResponse
  dsimp only
  split
  · exact .of_table (.of_sends_nil (Scsi.sends_unlockDevice _)) rfl
  · exact .refl c

theorem serves_getResponse {fuel : ℕ} {c : Conn β} {q : Pdu} (h_known : known q.bhs)
    {r : Option ResponseSet × Conn β} (h : getResponse T fuel c q = .ok r) :
    c.Serves known r.2 ∧ ∀ set ∈ r.1, ResponseSet.Known T known q set := by
  -- a set of one reply
  have h_one {reply : Reply} (hr : reply.Known T known) :
      ∀ set ∈ some ({ responses := [reply] } : ResponseSet), ResponseSet.Known T known q set :=
    fun set hs => Option.some.inj hs ▸ ResponseSet.known_single hr
  have h_answers {p : PduOut} (h_kind : q.bhs.getOpcode ∈ p.asked)
      (h_tag : p.itasktag = q.bhs.getItasktag) : p.Known known := ⟨q.bhs, h_known, h_kind, h_tag⟩
  unfold getResponse at h
  cases hop : q.bhs.getOpcode <;> rw [hop] at h h_answers <;> dsimp only at h
  case scsiCmd => exact serves_scsiCmdGetResponse h_known hop h
  case loginReq =>
    cases h_set : LoginReplyPdu.set T fuel c q.bhs with
    | error f =>
      rw [h_set] at h
      cases h
    | ok p =>
      rw [h_set] at h
      obtain rfl := Except.ok.inj h
      refine ⟨.refl c, fun set hs => ?_⟩
      obtain ⟨p, rfl, rfl⟩ := Option.map_eq_some_iff.mp hs
      have h_reply : (PduOut.loginReply p).Known known :=
        h_answers (List.mem_singleton_self _) (LoginReplyPdu.itasktag_set h_set)
      exact h_one (Reply.known_of_single (fun _ => rfl) h_reply) _ rfl
  case nopOut =>
    obtain rfl := Except.ok.inj h
    exact ⟨.refl c, h_one (Reply.known_of_single (fun _ => rfl)
      (h_answers (List.mem_singleton_self _) rfl))⟩
  case textReq =>
    obtain rfl := Except.ok.inj h
    refine ⟨.refl c, fun set hs => ?_⟩
    obtain ⟨p, h_set, rfl⟩ := Option.map_eq_some_iff.mp hs
    have h_reply : (PduOut.textReply p).Known known :=
      h_answers (List.mem_singleton_self _) (TextReplyPdu.itasktag_set h_set)
    exact h_one (Reply.known_of_single (fun _ => rfl) h_reply) _ rfl
  case logoutReq =>
    obtain rfl := Except.ok.inj h
    exact ⟨.refl c, h_one (Reply.known_of_single (fun _ => rfl)
      (h_answers (List.mem_singleton_self _) rfl))⟩
  case scsiTaskman =>
    obtain rfl := Except.ok.inj h
    exact ⟨serves_taskmanGetResponse c q, h_one (Reply.known_of_single (fun _ => rfl)
      (h_answers (List.mem_singleton_self _) rfl))⟩
  all_goals
    obtain rfl := Except.ok.inj h
    exact ⟨.refl c, fun set hs => by cases hs⟩

/-! ### One PDU -/

/-- What `push_response` reports when the answer has been built: only a READ can
end in an I/O error. -/
def Ends (q : Pdu) (ifr : FailReason) : Prop :=
  ifr = .ok ∨ ifr = .connection ∨ ifr = .ioError ∧ q.bhs.getOpcode = .scsiCmd

theorem emitPdus_reason (ps : List PduOut) {ifr : FailReason} (h : ifr = .ok ∨ ifr = .connection)
    (s : Scsi β) : (emitPdus T ps ifr s).1 = .ok ∨ (emitPdus T ps ifr s).1 = .connection := by
  induction ps generalizing ifr s with
  | nil => exact h
  | cons p ps ih =>
    unfold emitPdus
    -- the first failure ends the loop, and it is that of the connection
    split
    · dsimp only
      split
      · exact ih (.inl rfl) _
      · exact ih (.inr rfl) _
    · exact ih h s

theorem emitReplies_reason (rs : List Reply) {ifr : FailReason}
    (h : ifr = .ok ∨ ifr = .connection) (c : Conn β) :
    (emitReplies T rs ifr c).1 = .ok ∨ (emitReplies T rs ifr c).1 = .connection := by
  induction rs generalizing ifr c with
  | nil => exact h
  | cons r rs ih =>
    rw [emitReplies]
    exact ih (emitPdus_reason _ h c.scsi) _

theorem streamLoop_reason {p : StreamParams} {fuel : ℕ} {ifr : FailReason} {offset : UInt32}
    {lba : UInt64} {c : Conn β} {r : FailReason × Conn β}
    (h : streamLoop T p fuel ifr offset lba c = .ok r) :
    r.1 = ifr ∨ r.1 = .connection ∨ r.1 = .ioError := by
  induction fuel generalizing offset lba c with
  | zero => cases h
  | succ fuel ih =>
    rw [streamLoop] at h
    dsimp only at h
    -- nothing left, a read that fails, a send that fails, or another turn
    split at h
    swap
    · obtain rfl := Except.ok.inj h
      exact .inl rfl
    split at h
    · obtain rfl := Except.ok.inj h
      exact .inr (.inr rfl)
    · split at h
      · obtain rfl := Except.ok.inj h
        exact .inr (.inl rfl)
      · exact ih h

theorem serves_finishResponse {fuel : ℕ} {q : Pdu} (h_known : known q.bhs)
    {a : Option ResponseSet × Conn β} (h_set : ∀ set ∈ a.1, ResponseSet.Known T known q set)
    {r : FailReason × Conn β} (h : finishResponse T fuel q a = .ok r) :
    a.2.Serves known r.2 ∧ Ends q r.1 := by
  obtain ⟨responseSet, c⟩ := a
  cases responseSet with
  | none =>
    obtain rfl := Except.ok.inj h
    exact ⟨.refl c, .inl rfl⟩
  | some responseSet =>
    obtain ⟨h_replies, h_stream⟩ := h_set responseSet rfl
    have h_emit := serves_emitReplies h_replies .ok c
    have h_reason := emitReplies_reason (T := T) responseSet.responses (.inl rfl) c
    unfold finishResponse emitResponseSet at h
    dsimp only at h
    split at h
    · obtain rfl := Except.ok.inj h
      exact ⟨h_emit, h_reason.imp_right .inl⟩
    · next d h_some =>
      have h_op := h_stream (by rw [h_some]; exact Option.some_ne_none d)
      refine ⟨h_emit.trans (serves_streamData h_known h_op h), ?_⟩
      -- whatever the loop reports, or the reason it was started with
      unfold streamData at h
      dsimp only at h
      split at h
      · obtain rfl := Except.ok.inj h
        dsimp only
        split
        · exact h_reason.imp_right .inl
        · exact .inr (.inl rfl)
      · rcases streamLoop_reason h with h_eq | h_eq | h_eq
        · rw [h_eq]
          exact h_reason.imp_right .inl
        · exact .inr (.inl h_eq)
        · exact .inr (.inr ⟨h_eq, h_op⟩)

theorem serves_replyToFailure {c : Conn β} {q : Pdu} (h_known : known q.bhs) {ifr : FailReason}
    (h_ends : Ends q ifr) {r : FailureReply × Conn β}
    (h : replyToFailure T c (some q) ifr = .ok r) : c.Serves known r.2 := by
  rcases h_ends with rfl | rfl | ⟨rfl, h_op⟩
  · -- nothing failed
    rw [replyToFailure_ok] at h
    obtain rfl := Except.ok.inj h
    exact .refl c
  · -- there is nobody to answer
    rw [replyToFailure_connection] at h
    obtain rfl := Except.ok.inj h
    exact .refl c
  · -- a SCSI Command or a Data-Out is answered with an error
    rw [replyToFailure_ioError] at h
    obtain rfl := Except.ok.inj h
    exact .of_table (.sendPdu (known_scsiResponse h_known h_op _ _ _) c.scsi) rfl

/-- The answer to a Data-Out. The header it is answered under comes from the
table, so that what is known of the table is needed here. -/
theorem DataOutOutcome.serves {c c' : Conn β} {q : Pdu} (h : DataOutOutcome T c q c')
    (h_op : q.bhs.getOpcode = .scsiDataOut) (h_known : known q.bhs)
    (h_owned : c.ses.Owned known) : c.Serves known c' := by
  have h_receive : c.Serves known (c.receive q) := .of_table (.of_sends_nil (c.sends_receive q)) rfl
  have h_error : (ioErrorPdu T q).Known known :=
    ⟨q.bhs, h_known, by rw [h_op]; exact List.mem_cons_of_mem _ (List.mem_singleton_self _), rfl⟩
  have h_emit {c₁ : Conn β} {p : PduOut} (hp : p.Known known) : c₁.Serves known (c₁.emit T p) :=
    .of_table (.sendPdu hp c₁.scsi) rfl
  -- what a Data-Out that is taken leaves: the same command in the entry, and nothing sent
  have h_delivered {session session' : R2tSession} {c₁ : Conn β}
      (h_ses : c.ses.getR2tSesion q.tag = some session)
      (h_del : Delivered T c q session session' c₁) :
      c.Serves known c₁ ∧ known session'.pduInitiator ∧
        session'.pduInitiator.getOpcode = .scsiCmd := by
    obtain ⟨h_quiet, h_same⟩ := h_del.sends
    have h_entry := h_owned q.tag session h_ses
    rw [← h_same] at h_entry
    refine ⟨⟨.of_sends_nil h_quiet, fun h_table => ?_⟩, h_entry⟩
    cases h_del with
    | empty hd => exact h_table
    | data hd halign hwritten hsync =>
      exact h_table.update rfl fun rs h_rs => Option.some.inj h_rs ▸ h_entry
  cases h with
  -- not taken, or not in order: nothing is sent
  | unknown hses => exact h_receive
  | refused hses hbad => exact h_receive
  | @writeFailed session hses hd halign hwritten =>
    have h_quiet := sends_writtenDataOut (T := T) c q session
    refine Conn.Serves.trans (.of_table (.of_sends_nil h_quiet) ?_) (h_emit h_error)
    rfl
  | @syncFalse session hses hd halign hwritten hfua hsync =>
    have h_quiet := (sends_writtenDataOut (T := T) c q session).after (Scsi.sends_sync (T := T) _)
    refine Conn.Serves.trans (.of_table (.of_sends_nil h_quiet) ?_) (h_emit h_error)
    rfl
  | delivered hses hd hdel hF => exact (h_delivered hses hdel).1
  | @finished session session' c₁ hses hdel hF =>
    obtain ⟨h_serves, h_entry, h_cmd⟩ := h_delivered hses hdel
    refine h_serves.trans ?_
    have h_good : (goodPdu T session').Known known := known_scsiResponse h_entry h_cmd _ _ _
    have h_rest : (restPdu T session' q.tag).Known known := known_r2t h_entry h_cmd _ _ _
    unfold closeBatch
    split
    · -- the last burst: the entry goes, and GOOD answers the command of the entry
      have h_removed : c₁.Serves known { c₁ with ses := c₁.ses.removeR2tSession q.tag } :=
        ⟨.refl c₁.scsi, fun h_table => h_table.update rfl fun rs h_rs => by cases h_rs⟩
      exact h_removed.trans (h_emit h_good)
    split
    · exact (h_emit h_good).trans (h_emit h_rest)
    · exact h_emit h_good

/-- **One PDU.** All that is sent for it answers it, or a SCSI Command the table
has kept. The handlers of the other opcodes only look at the header of the PDU
itself. -/
theorem serves_serve {fuel : ℕ} {c c' : Conn β} {q : Pdu} (h_known : known q.bhs)
    (h_owned : c.ses.Owned known) (h : serve T fuel c q = .ok c') : c.Serves known c' := by
  by_cases h_op : q.bhs.getOpcode = .scsiDataOut
  · -- a Data-Out answers by the entry it belongs to
    obtain ⟨c₁, h_serve, h_outcome⟩ := serve_dataOut (T := T) fuel c h_op
    obtain rfl := Except.ok.inj (h_serve.symm.trans h)
    exact h_outcome.serves h_op h_known h_owned
  have h_receive : c.Serves known (c.receive q) := .of_table (.of_sends_nil (c.sends_receive q)) rfl
  unfold serve at h
  cases h_push : pushResponse T fuel c q with
  | error f =>
    rw [h_push] at h
    cases h
  | ok r =>
    rw [h_push] at h
    obtain ⟨ifr, c₁⟩ := r
    dsimp only at h
    -- any other PDU by itself: the answer, what is streamed, and the answer to a failure
    have h_pushed : c.Serves known c₁ ∧ Ends q ifr := by
      unfold pushResponse at h_push
      rw [if_neg h_op] at h_push
      cases h_get : getResponse T fuel (c.receive q) q with
      | error f =>
        have h_get' : getResponse T fuel { c with scsi := c.scsi.note (.received q) } q =
          .error f := h_get
        rw [h_get'] at h_push
        cases h_push
      | ok a =>
        have h_get' : getResponse T fuel { c with scsi := c.scsi.note (.received q) } q =
          .ok a := h_get
        rw [h_get'] at h_push
        obtain ⟨h_serves, h_set⟩ := serves_getResponse h_known h_get
        obtain ⟨h_finish, h_ends⟩ := serves_finishResponse h_known h_set h_push
        exact ⟨(h_receive.trans h_serves).trans h_finish, h_ends⟩
    cases h_reply : replyToFailure T c₁ (some q) ifr with
    | error f =>
      rw [h_reply] at h
      cases h
    | ok reply =>
      rw [h_reply] at h
      obtain rfl := Except.ok.inj h
      exact h_pushed.1.trans (serves_replyToFailure h_known h_pushed.2 h_reply)

end

end IscsiTarget
