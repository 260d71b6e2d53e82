import IscsiTarget.Answers.Step
import IscsiTarget.DataIn.Streamed

/-!
# The Data-Ins of one PDU

`Scsi.SendsDataIns` keeps the Data-Ins of what is sent and forgets the rest. Only a SCSI Command
whose data is in a buffer, or a READ, makes the target send any: `serve_dataIns` says which
(`EmitsDataIns`). All of them go back to `get` or to the streaming loop.
-/

namespace IscsiTarget

variable {β : Type} {T : Target β}

/-- The Data-Ins among some PDUs. -/
def dataInPdus (ps : List PduOut) : List DataInPdu := ps.filterMap PduOut.asDataIn

@[simp] theorem dataInPdus_append (ps rs : List PduOut) :
    dataInPdus (ps ++ rs) = dataInPdus ps ++ dataInPdus rs := List.filterMap_append

@[simp] theorem dataInPdus_map (ds : List DataInPdu) : dataInPdus (ds.map .dataIn) = ds := by
  induction ds with
  | nil => rfl
  | cons d ds ih => exact congrArg (d :: ·) ih

/-! ### Between two states -/

namespace Scsi

/-- From `s` to `s'` the Data-Ins `ds` are sent, and maybe other PDUs. -/
def SendsDataIns (s s' : Scsi β) (ds : List DataInPdu) : Prop :=
  ∃ ps, s.Sends s' ps ∧ dataInPdus ps = ds

namespace SendsDataIns

variable {s s₁ s₂ : Scsi β} {ds es : List DataInPdu}

theorem of_map (h : s.Sends s₁ (ds.map .dataIn)) : s.SendsDataIns s₁ ds :=
  ⟨_, h, dataInPdus_map ds⟩

theorem trans (h₁ : s.SendsDataIns s₁ ds) (h₂ : s₁.SendsDataIns s₂ es) :
    s.SendsDataIns s₂ (ds ++ es) := by
  obtain ⟨ps, h_ps, rfl⟩ := h₁
  obtain ⟨rs, h_rs, rfl⟩ := h₂
  exact ⟨_, h_ps.trans h_rs, dataInPdus_append ps rs⟩

theorem after (h₁ : s.Sends s₁ []) (h₂ : s₁.SendsDataIns s₂ ds) : s.SendsDataIns s₂ ds := by
  obtain ⟨ps, h_ps, rfl⟩ := h₂
  exact ⟨ps, h₁.after h_ps, rfl⟩

theorem unique (h₁ : s.SendsDataIns s₁ ds) (h₂ : s.SendsDataIns s₁ es) : ds = es := by
  obtain ⟨ps, h_ps, rfl⟩ := h₁
  obtain ⟨rs, h_rs, rfl⟩ := h₂
  rw [h_ps.unique h_rs]

end SendsDataIns

end Scsi

/-- A PDU that is no Data-In. -/
theorem Conn.sendsDataIns_emit (c : Conn β) {p : PduOut} (h : p.asDataIn = none) :
    c.scsi.SendsDataIns (c.emit T p).scsi [] :=
  ⟨[p], c.sends_emit p, by simp [dataInPdus, h]⟩

/-- What the handler adds is no Data-In. It is a reject or a SCSI Response, or
nothing at all. -/
theorem sendsDataIns_replyToFailure {c c' : Conn β} {q : Pdu} {ifr : FailReason}
    (h : (replyToFailure T c (some q) ifr).map (·.2) = .ok c') :
    c.scsi.SendsDataIns c'.scsi [] := by
  by_cases h_fails : ifr ≠ .ok ∧ ifr ≠ .connection
  swap
  · -- no failure, or nobody to tell
    rw [replyToFailure, if_neg h_fails] at h
    obtain rfl := Except.ok.inj h
    exact ⟨[], .refl _, rfl⟩
  rw [replyToFailure, if_pos h_fails] at h
  unfold buildReject generateRejectPdu at h
  -- a SCSI Response for an I/O error, a reject for the others
  by_cases h_io : ifr = .ioError
  · simp only [if_pos h_io] at h
    obtain rfl := Except.ok.inj h
    exact c.sendsDataIns_emit rfl
  · simp only [if_neg h_io] at h
    cases h_get : q.get with
    | none =>
      rw [h_get] at h
      obtain rfl := Except.ok.inj h
      exact ⟨[], .refl _, rfl⟩
    | some raw =>
      rw [h_get] at h
      obtain rfl := Except.ok.inj h
      exact c.sendsDataIns_emit rfl

/-! ### The commands without Data-Ins -/

variable {fuel : ℕ} {c c' : Conn β} {q : Pdu}

theorem sendsDataIns_openR2t (rs : R2tSession) (c : Conn β) (q : Pdu) :
    c.scsi.SendsDataIns (openR2t T rs c q).scsi [] := by
  unfold openR2t
  dsimp only
  split
  · exact ⟨_, Conn.sends_answer _ _, rfl⟩
  · exact ⟨[], Scsi.Sends.refl _, rfl⟩

theorem sendsDataIns_write (h : WriteOutcome T c q c') : c.scsi.SendsDataIns c'.scsi [] := by
  have h_stored := sends_storedImmediate (T := T) c q
  cases h with
  | refused => exact .after (c.sends_receive q) (Conn.sendsDataIns_emit _ rfl)
  | conflict => exact .after h_stored (Conn.sendsDataIns_emit _ rfl)
  | failed => exact ⟨[], h_stored, rfl⟩
  | complete =>
    exact .after (h_stored.after (Scsi.sends_syncedIf _ _)) (Conn.sendsDataIns_emit _ rfl)
  | mismatch => exact .after h_stored (Conn.sendsDataIns_emit _ rfl)
  | transfer => exact .after h_stored (sendsDataIns_openR2t _ _ _)

theorem sendsDataIns_writeSame (h : SameOutcome T fuel c q c') :
    c.scsi.SendsDataIns c'.scsi [] := by
  have h_receive := c.sends_receive q
  cases h with
  | refused => exact .after h_receive (Conn.sendsDataIns_emit _ rfl)
  | miscounted => exact ⟨[], h_receive, rfl⟩
  | tooLong => exact .after h_receive (Conn.sendsDataIns_emit _ rfl)
  | looped _ _ _ _ h_loop => exact .after (sends_sameLoop h_loop) (Conn.sendsDataIns_emit _ rfl)
  | asked => exact .after h_receive (sendsDataIns_openR2t _ _ _)
  | mismatch => exact .after h_receive (Conn.sendsDataIns_emit _ rfl)
  | nothing => exact .after h_receive (Conn.sendsDataIns_emit _ rfl)

theorem sendsDataIns_dataOut (h : DataOutOutcome T c q c') : c.scsi.SendsDataIns c'.scsi [] := by
  have h_receive := c.sends_receive q
  cases h with
  | unknown => exact ⟨[], h_receive, rfl⟩
  | refused => exact ⟨[], h_receive, rfl⟩
  | @writeFailed session =>
    exact .after (sends_writtenDataOut c q session) (Conn.sendsDataIns_emit _ rfl)
  | @syncFalse session =>
    exact .after ((sends_writtenDataOut c q session).after (Scsi.sends_sync _))
      (Conn.sendsDataIns_emit _ rfl)
  | delivered _ _ h_del => exact ⟨[], h_del.sends.1, rfl⟩
  | @finished session session' c₁ _ h_del =>
    refine .after h_del.sends.1 ?_
    -- the end of a burst sends a response, or a response and an R2T
    unfold closeBatch
    split
    · exact Conn.sendsDataIns_emit _ rfl
    split
    · exact (c₁.sendsDataIns_emit rfl).trans (Conn.sendsDataIns_emit _ rfl)
    · exact Conn.sendsDataIns_emit _ rfl

/-- Whatever is no SCSI Command is answered without data. Each opcode has a PDU
object of its own, none of which is a Data-In. -/
theorem sendsDataIns_other (hop : q.bhs.getOpcode ≠ .scsiCmd) (h : serve T fuel c q = .ok c') :
    c.scsi.SendsDataIns c'.scsi [] := by
  by_cases h_dataOut : q.bhs.getOpcode = .scsiDataOut
  · obtain ⟨c₁, h_serve, h_out⟩ := serve_dataOut (T := T) fuel c h_dataOut
    obtain rfl := Except.ok.inj (h_serve.symm.trans h)
    exact sendsDataIns_dataOut h_out
  have h_receive := c.sends_receive q
  have h_none : getResponse T fuel (c.receive q) q = .ok (none, c.receive q) →
      c.scsi.SendsDataIns c'.scsi [] := by
    intro h_get
    obtain rfl := Except.ok.inj ((serve_of_none h_dataOut h_get).symm.trans h)
    exact ⟨[], h_receive, rfl⟩
  -- by the class of the PDU: the commands, a login, and what is not answered
  by_cases h_command : q.bhs.getOpcode.isCommand = true
  · by_cases h_silent : Silent T c q
    · obtain ⟨h_op, h_text⟩ : q.bhs.getOpcode = .textReq ∧ TextUnanswered q :=
        h_silent.resolve_left fun h' => hop h'.1
      refine h_none ?_
      rw [getResponse, h_op]
      dsimp only
      rw [(textReply_eq_none_iff q).mpr h_text]
      rfl
    · obtain ⟨r, p, c₁, h_get, h_r, h_history, -, h_data, -⟩ :=
        @getResponse_command _ T fuel c q h_command hop h_silent
      obtain rfl := Except.ok.inj ((serve_of_one h_dataOut h_get h_r).symm.trans h)
      exact .after (h_receive.after (.of_history h_history)) (c₁.sendsDataIns_emit h_data)
  by_cases h_login : q.bhs.getOpcode = .loginReq
  · cases h_set : LoginReplyPdu.set T fuel (c.receive q) q.bhs with
    | error f =>
      have h_get :
          getResponse T fuel { c with scsi := c.scsi.note (.received q) } q = .error f := by
        rw [getResponse, h_login]
        dsimp only
        change (LoginReplyPdu.set T fuel (c.receive q) q.bhs).map _ = _
        rw [h_set]
        rfl
      unfold serve at h
      rw [pushResponse, if_neg h_dataOut, h_get] at h
      cases h
    | ok r =>
      have h_get : getResponse T fuel (c.receive q) q =
          .ok (r.map fun p => { responses := [.loginReply p] }, c.receive q) := by
        rw [getResponse, h_login]
        dsimp only
        rw [h_set]
        rfl
      cases r with
      | none => exact h_none h_get
      | some p =>
        obtain rfl := Except.ok.inj ((serve_of_one h_dataOut h_get rfl).symm.trans h)
        exact .after h_receive (Conn.sendsDataIns_emit _ rfl)
  · refine h_none ?_
    rw [getResponse]
    cases h_op : q.bhs.getOpcode <;> simp_all [BhsOpcode.isCommand]

/-! ### The commands with Data-Ins -/

variable (T) in
/-- The command makes the target send Data-Ins. An answer in a buffer does as
soon as some of it is expected; a streamed one only when its first segment could
be read. -/
inductive SendsData (c : Conn β) (q : Pdu) : Prop
  /-- The answer is data in a buffer, and some is expected. -/
  | inline (h_op : q.bhs.getOpcode = .scsiCmd) (h_data : c.scsi.ReturnsData T q.bhs.getCdb)
    (h_some : ¬ (Scsi.AllocatesNothing q.bhs.getCdb ∨ q.bhs.getExpDatLen = 0))
  /-- The answer is streamed, and the first segment can be read. -/
  | streamed (h_op : q.bhs.getOpcode = .scsiCmd) (h_stream : c.scsi.Streams T q.bhs.getCdb)
    (h_length : (streamParamsOf T c q).offsetEnd ≠ 0) {payload : Bytes} {s' : Scsi β}
    (h_read : streamRead T (c.receive q).scsi q.bhs.getCdb.range.1
      ((streamParamsOf T c q).currentN c.ses 0) = (.ok payload, s'))

variable (T) in
/-- The Data-Ins that are sent for a PDU. There are two encoders, and when a
send fails only the front part of what they have prepared goes out. -/
inductive EmitsDataIns (fuel : ℕ) (c : Conn β) (q : Pdu) : List DataInPdu → Prop
  | none (h_none : ¬ SendsData T c q) : EmitsDataIns fuel c q []
  /-- They come from `get`, as far as they can be sent. -/
  | inline (h_sends : SendsData T c q) (h_stream : ¬ c.scsi.Streams T q.bhs.getCdb)
    {data : Bytes} {ds : List DataInPdu} (h_ne : ds ≠ [])
    (h_front : ds <+: (dataInGet T q.bhs data c.ses).1) : EmitsDataIns fuel c q ds
  /-- They come from the streaming loop. -/
  | streamed (h_sends : SendsData T c q) (h_stream : c.scsi.Streams T q.bhs.getCdb)
    {ifr : FailReason} {c₁ : Conn β} {ds : List DataInPdu} (h_ne : ds ≠ [])
    (h_loop : streamLoop T (streamParamsOf T c q) fuel .ok 0 q.bhs.getCdb.range.1 (c.receive q) =
      .ok (ifr, c₁))
    (h_ds : (c.receive q).scsi.Sends c₁.scsi (ds.map .dataIn)) : EmitsDataIns fuel c q ds

theorem EmitsDataIns.ne_nil_iff {ds : List DataInPdu} (h : EmitsDataIns T fuel c q ds) :
    ds ≠ [] ↔ SendsData T c q := by
  cases h with
  | none h_none => exact iff_of_false (fun h => h rfl) h_none
  | inline h_sends _ h_ne => exact iff_of_true h_ne h_sends
  | streamed h_sends _ h_ne => exact iff_of_true h_ne h_sends

/-- A command that is neither a READ nor one for data in a buffer. -/
theorem not_sendsData (h_data : ¬ c.scsi.ReturnsData T q.bhs.getCdb)
    (h_stream : ¬ c.scsi.Streams T q.bhs.getCdb) : ¬ SendsData T c q := by
  intro h
  cases h with
  | inline _ h_data' => exact h_data h_data'
  | streamed _ h_stream' => exact h_stream h_stream'

theorem not_streams_of_isWrite (h : q.bhs.getCdb.opcode.isWrite = true) :
    ¬ c.scsi.Streams T q.bhs.getCdb := by
  rintro ⟨h_read, -⟩
  generalize q.bhs.getCdb.opcode = op at h h_read
  rcases h_read with rfl | rfl | rfl | rfl <;> cases h

theorem not_streams_of_isWriteSame (h : q.bhs.getCdb.opcode.isWriteSame = true) :
    ¬ c.scsi.Streams T q.bhs.getCdb := by
  rintro ⟨h_read, -⟩
  generalize q.bhs.getCdb.opcode = op at h h_read
  rcases h_read with rfl | rfl | rfl | rfl <;> cases h

/-- The Data-Ins of data in a buffer: those that `get` makes of it, up to the
first send that fails. -/
theorem sendsDataIns_emitReplies (replyTo : Header) (data : Bytes) (c : Conn β) :
    ∃ ds, c.scsi.SendsDataIns (emitReplies T [.dataIn replyTo data] .ok c).2.scsi ds ∧
      ds <+: (dataInGet T replyTo data c.ses).1 ∧
      (ds = [] ↔ data = [] ∨ replyTo.getExpDatLen = 0) := by
  obtain ⟨sent, h_sends, h_prefix, h_rest⟩ :=
    sends_emitPdus (T := T) ((dataInGet T replyTo data c.ses).1.map .dataIn) c.scsi
  obtain ⟨-, h_nil, -⟩ := dataInGet_spec (T := T) replyTo data c.ses
  obtain ⟨ds, h_ds, rfl⟩ := List.prefix_map_iff.mp h_prefix
  refine ⟨ds, .of_map h_sends, h_ds, ?_⟩
  rw [← h_nil]
  rcases h_rest with ⟨h_all, -⟩ | ⟨h_ne, -⟩
  · rw [List.map_injective_iff.mpr (fun _ _ h => PduOut.dataIn.inj h) h_all]
  · refine iff_of_false (fun h => h_ne (by rw [h]; rfl)) fun h => h_ne ?_
    rw [h] at h_ds
    rw [List.prefix_nil.mp h_ds]
    rfl

theorem not_returnsData_of_streams (hs : c.scsi.Streams T q.bhs.getCdb) :
    ¬ c.scsi.ReturnsData T q.bhs.getCdb := by
  have h_read := hs.1
  unfold Scsi.ReturnsData
  generalize q.bhs.getCdb.opcode = op at h_read
  rcases h_read with rfl | rfl | rfl | rfl <;> simp

/-- The Data-Ins of a READ. They come from the streaming loop alone, and there
are none when it sends nothing or its first read fails. -/
theorem serve_dataIns_of_streams (hop : q.bhs.getOpcode = .scsiCmd)
    (hs : c.scsi.Streams T q.bhs.getCdb) (h : serve T fuel c q = .ok c') :
    ∃ ds, c.scsi.SendsDataIns c'.scsi ds ∧ EmitsDataIns T fuel c q ds := by
  have h_receive := c.sends_receive q
  have h_data := not_returnsData_of_streams hs
  rw [serve_of_streams hop hs, streamData_eq] at h
  by_cases h_zero : (streamParamsOf T c q).offsetEnd = 0
  · rw [if_pos h_zero] at h
    change (replyToFailure T _ (some q) (sendReason _)).map (·.2) = .ok c' at h
    rw [replyToFailure_sendReason] at h
    obtain rfl := Except.ok.inj h
    refine ⟨[], .after h_receive (Conn.sendsDataIns_emit _ rfl), .none fun h' => ?_⟩
    cases h' with
    | inline _ h_data' => exact h_data h_data'
    | streamed _ _ h_length => exact h_length h_zero
  rw [if_neg h_zero] at h
  have h_more : 0 < (streamParamsOf T c q).offsetEnd := UInt32.pos_iff_ne_zero.mpr h_zero
  cases h_loop : streamLoop T (streamParamsOf T c q) fuel .ok 0 q.bhs.getCdb.range.1
      (c.receive q) with
  | error f =>
    rw [h_loop] at h
    cases h
  | ok r =>
    obtain ⟨ifr, c₁⟩ := r
    rw [h_loop] at h
    obtain ⟨ds, h_ds, h_counts⟩ := streamLoop_counts h_loop
    have h_all := (Scsi.SendsDataIns.of_map h_ds).trans (sendsDataIns_replyToFailure h)
    rw [List.append_nil] at h_all
    refine ⟨ds, .after h_receive h_all, ?_⟩
    -- whether there are any is decided by the first read
    obtain ⟨fuel, rfl⟩ : ∃ k, fuel = k + 1 := by
      cases fuel with
      | zero => cases h_loop
      | succ k => exact ⟨k, rfl⟩
    have h_sent {payload : Bytes} {s' : Scsi β} {ok : Bool} {c₂ : Conn β} {es : List PduOut}
        (h_read : streamRead T (c.receive q).scsi q.bhs.getCdb.range.1
          ((streamParamsOf T c q).currentN c.ses 0) = (.ok payload, s'))
        (h_es : (s'.note (.sent (.dataIn ((streamParamsOf T c q).dataIn T c.ses 0 payload).1)
          ok)).Sends c₂.scsi es) (h_same : c₁ = c₂) : EmitsDataIns T (fuel + 1) c q ds := by
      subst h_same
      refine .streamed (.streamed hop hs h_zero h_read) hs ?_ h_loop h_ds
      rintro rfl
      have h_reads := sends_streamRead (T := T) (c.receive q).scsi q.bhs.getCdb.range.1
        ((streamParamsOf T c q).currentN c.ses 0)
      rw [h_read] at h_reads
      have h_eq := h_ds.unique ((h_reads.after (sends_dataIn_event _ _ _)).trans h_es)
      cases h_eq
    cases streamTurn_of_loop h_more h_loop with
    | readFailed h_read =>
      have h_reads := sends_streamRead (T := T) (c.receive q).scsi q.bhs.getCdb.range.1
        ((streamParamsOf T c q).currentN c.ses 0)
      rw [show streamRead T (c.receive q).scsi q.bhs.getCdb.range.1
        ((streamParamsOf T c q).currentN c.ses 0) = _ from h_read] at h_reads
      obtain rfl : ds = [] := List.map_eq_nil_iff.mp (h_ds.unique h_reads)
      refine .none fun h' => ?_
      cases h' with
      | inline _ h_data' => exact h_data h_data'
      | streamed _ _ _ h_read' => exact absurd (h_read.symm.trans h_read') (by simp)
    | sendFailed h_read h_send => exact h_sent h_read (.refl _) rfl
    | next h_read h_send h_rest =>
      obtain ⟨es, h_es, -⟩ := streamLoop_counts h_rest
      exact h_sent h_read h_es rfl

/-- **The Data-Ins of one PDU.** WRITE and WRITE SAME send none; for the other
commands it is the kind of the answer that decides. -/
theorem serve_dataIns (h : serve T fuel c q = .ok c') :
    ∃ ds, c.scsi.SendsDataIns c'.scsi ds ∧ EmitsDataIns T fuel c q ds := by
  by_cases hop : q.bhs.getOpcode = .scsiCmd
  swap
  · -- no SCSI Command
    refine ⟨[], sendsDataIns_other hop h, .none fun h' => ?_⟩
    cases h' with
    | inline h_op => exact hop h_op
    | streamed h_op => exact hop h_op
  by_cases h_write : q.bhs.getCdb.opcode.isWrite = true
  · obtain ⟨c₁, h_serve, h_out⟩ := serve_write (T := T) fuel c ⟨hop, h_write⟩
    obtain rfl := Except.ok.inj (h_serve.symm.trans h)
    exact ⟨[], sendsDataIns_write h_out, .none (not_sendsData
      (not_returnsData_of_isWrite h_write) (not_streams_of_isWrite h_write))⟩
  obtain ⟨r, s', h_send⟩ := send_of_serve hop h
  by_cases h_same : q.bhs.getCdb.opcode.isWriteSame = true
  · obtain ⟨c₁, h_serve, h_out⟩ := @serve_writeSame _ T fuel c q ⟨hop, h_same⟩
      (sameLoop_of_send ⟨hop, h_same⟩ h_send)
    obtain rfl := Except.ok.inj (h_serve.symm.trans h)
    exact ⟨[], sendsDataIns_writeSame h_out, .none (not_sendsData
      (not_returnsData_of_isWriteSame h_same) (not_streams_of_isWriteSame h_same))⟩
  rw [Bool.not_eq_true] at h_write h_same
  obtain ⟨h_kind, h_sends⟩ := Scsi.send_kind h_write h_same h_send
  have h_before : c.scsi.Sends s' [] := (c.sends_receive q).after h_sends
  cases h_kind with
  -- of the others, the commands are told apart by the answer of `send`
  | status h_data h_stream h_r =>
    have h_serve := serve_of_status hop h_send h_r.inlineData h_r.location h_r.type
    obtain rfl := Except.ok.inj (h_serve.symm.trans h)
    exact ⟨[], .after h_before (Conn.sendsDataIns_emit _ rfl),
      .none (not_sendsData h_data h_stream)⟩
  | @data h_data h_stream d h_empty h_r =>
    obtain rfl := Except.ok.inj ((serve_of_isData hop h_send h_r).symm.trans h)
    obtain ⟨ds, h_ds, h_prefix, h_nil⟩ :=
      sendsDataIns_emitReplies (T := T) q.bhs d { c with scsi := s' }
    rw [h_empty] at h_nil
    refine ⟨ds, .after h_before h_ds, ?_⟩
    by_cases h_none : Scsi.AllocatesNothing q.bhs.getCdb ∨ q.bhs.getExpDatLen = 0
    · rw [h_nil.mpr h_none]
      refine .none fun h' => ?_
      cases h' with
      | inline _ _ h_some => exact h_some h_none
      | streamed _ h_stream' => exact h_stream h_stream'
    · exact @EmitsDataIns.inline _ T fuel c q (.inline hop h_data h_none) h_stream d ds
        (mt h_nil.mp h_none) h_prefix
  | stream h_data h_stream h_r h_loc => exact serve_dataIns_of_streams hop h_stream h

end IscsiTarget
