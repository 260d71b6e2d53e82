import IscsiTarget.Answers.Sent
import IscsiTarget.Read.Stream

/-!
# Answers that carry data

Data goes out in Data-Ins, the last of which bears the status. Data in a buffer is cut into
blocks by `get` (`sends_dataIn`); data on the medium is streamed (`sends_streamLoop`), and when
a read fails the loop ends with no status sent: the handler adds it.

The streaming loop moves on by the most a Data-In can carry. When that is nothing, because a
segment length of zero has been negotiated, it reads the same block again and again, and ends
only when that fails (`streamLoop_isOk_iff`).
-/

namespace IscsiTarget

variable {β : Type} {T : Target β}

/-- Exactly one PDU bears status, or an R2T is sent and none does. -/
def OneStatus (ps : List PduOut) : Prop :=
  ps.countP PduOut.bearsStatus = if ps.any PduOut.isR2t then 0 else 1

instance (ps : List PduOut) : Decidable (OneStatus ps) := inferInstanceAs (Decidable (_ = _))

variable (T) in
/-- The PDUs are an answer, as far as they could be sent: with an R2T and no
status when data is wanted first, and with a status otherwise. -/
structure Answered (h : Header) (wants : Prop) (ps : List PduOut) : Prop
    extends AnswerTo T h ps where
  ne_nil : ps ≠ []
  r2t : ps.any PduOut.isR2t = true ↔ wants
  deferred : wants → ps.countP PduOut.bearsStatus = 0
  settled : T.Connected → ¬ wants → ps.countP PduOut.bearsStatus = 1

namespace Answered

variable {h : Header} {wants wants' : Prop} {ps : List PduOut}

theorem scsiResponse (sense : Bytes) (residual : Option (Residual × UInt32))
    (status : Option UInt8) : Answered T h False [.scsiResponse (.set T h sense residual status)] :=
  ⟨.single rfl, List.cons_ne_nil _ _, by simp [PduOut.isR2t], False.elim, fun _ _ => rfl⟩

theorem ofR2t (ttt offset len : UInt32) : Answered T h True [.r2t (.set T h ttt offset len)] :=
  ⟨.single rfl, List.cons_ne_nil _ _, by simp [PduOut.isR2t], fun _ => rfl,
    fun _ h => absurd trivial h⟩

theorem congr (h_ans : Answered T h wants ps) (h_iff : wants ↔ wants') : Answered T h wants' ps :=
  (propext h_iff) ▸ h_ans

/-- With or without an R2T there is one status in the end. -/
theorem oneStatus (h_ans : Answered T h wants ps) (h_conn : T.Connected) : OneStatus ps := by
  unfold OneStatus
  by_cases h_wants : wants
  · rw [h_ans.deferred h_wants, if_pos (h_ans.r2t.mpr h_wants)]
  · rw [h_ans.settled h_conn h_wants, if_neg (mt h_ans.r2t.mp h_wants)]

end Answered

/-! ### Data in a buffer -/

/-- **The loop of `get`**: one Data-In for each turn, the last one with the
status. By induction on the turns that are left; a turn is the last one when
there is nothing behind its block. -/
theorem dataInGetLoop_spec (replyTo : Header) (data : Bytes) {use nToDo : ℕ}
    (h_use : ∀ k < nToDo, k * T.blockSize < use) :
    ∀ (turns count : ℕ) (ses : Session), count + turns = nToDo →
      (dataInGetLoop T replyTo data use nToDo turns count ses).1.length = turns ∧
      (∀ p ∈ (dataInGetLoop T replyTo data use nToDo turns count ses).1,
        p.numbers = numbersFor T replyTo) ∧
      (dataInGetLoop T replyTo data use nToDo turns count ses).1.countP DataInPdu.statusBit =
        min turns 1 := by
  intro turns
  induction turns with
  | zero =>
    intro count ses _
    exact ⟨rfl, by simp [dataInGetLoop], rfl⟩
  | succ turns ih =>
    intro count ses h_count
    obtain ⟨h_len, h_numbers, h_status⟩ :=
      ih (count + 1) (ses.getIncDatasn replyTo.getItasktag).2 (by omega)
    rw [dataInGetLoop, if_pos (h_use count (by omega))]
    dsimp only
    refine ⟨by rw [List.length_cons, h_len], ?_, ?_⟩
    · intro p hp
      rcases List.mem_cons.mp hp with rfl | hp
      · rfl
      · exact h_numbers p hp
    · -- the status goes with the last block
      rw [List.countP_cons, h_status]
      by_cases h_last : turns = 0
      · have h_eq : (count + 1 == nToDo) = true := by
          rw [beq_iff_eq]
          omega
        simp [h_last, h_eq]
      · have h_ne : (count + 1 == nToDo) = false := by
          rw [beq_eq_false_iff_ne]
          omega
        simp only [h_ne]
        have h_pos : 0 < turns := Nat.pos_of_ne_zero h_last
        simp only [Bool.false_eq_true, if_false]
        omega

/-- `get` of a Data-In object. It makes nothing of an empty buffer or of an
ExpDatLen of zero, and so there is no status either. -/
theorem dataInGet_spec (replyTo : Header) (data : Bytes) (ses : Session) :
    (∀ p ∈ (dataInGet T replyTo data ses).1, p.numbers = numbersFor T replyTo) ∧
      ((dataInGet T replyTo data ses).1 = [] ↔ data = [] ∨ replyTo.getExpDatLen = 0) ∧
      (dataInGet T replyTo data ses).1.countP DataInPdu.statusBit =
        if data = [] ∨ replyTo.getExpDatLen = 0 then 0 else 1 := by
  have h_bs := T.blockSize_pos
  obtain ⟨use, h_def⟩ : ∃ use, use = min data.length replyTo.getExpDatLen.toNat := ⟨_, rfl⟩
  obtain ⟨n, h_n⟩ : ∃ n, n = (use + T.blockSize - 1) / T.blockSize := ⟨_, rfl⟩
  -- each turn of the loop has a byte left to send
  have h_use : ∀ k < n, k * T.blockSize < use := by
    intro k hk
    have h_le : (k + 1) * T.blockSize ≤ use + T.blockSize - 1 := by
      rw [h_n] at hk
      exact (Nat.mul_le_mul_right _ hk).trans (Nat.div_mul_le_self _ _)
    rw [Nat.add_mul, Nat.one_mul] at h_le
    omega
  -- there is no turn at all when there is no data, or none is expected
  have h_zero : n = 0 ↔ data = [] ∨ replyTo.getExpDatLen = 0 := by
    have h_use_zero : n = 0 ↔ use = 0 := by
      rw [h_n, Nat.div_eq_zero_iff]
      omega
    have h_edl : replyTo.getExpDatLen.toNat = 0 ↔ replyTo.getExpDatLen = 0 :=
      ⟨fun h => UInt32.toNat_inj.mp h, fun h => by rw [h]; rfl⟩
    rw [h_use_zero, h_def, ← h_edl, ← List.length_eq_zero_iff]
    omega
  obtain ⟨h_len, h_numbers, h_status⟩ :=
    dataInGetLoop_spec (T := T) replyTo data h_use n 0 ses (Nat.zero_add n)
  have h_eq : dataInGet T replyTo data ses = dataInGetLoop T replyTo data use n n 0 ses := by
    rw [h_n, h_def]
    rfl
  rw [h_eq]
  refine ⟨h_numbers, ?_, ?_⟩
  · rw [← List.length_eq_zero_iff, h_len, h_zero]
  · rw [h_status]
    split
    · next h => rw [h_zero.mpr h]; rfl
    · next h =>
      have h_ne : n ≠ 0 := fun h_0 => h (h_zero.mp h_0)
      omega

theorem countP_dataIn (ps : List DataInPdu) :
    (ps.map PduOut.dataIn).countP PduOut.bearsStatus = ps.countP DataInPdu.statusBit := by
  rw [List.countP_map]
  rfl

/-- There is no R2T among the first few of some Data-Ins. -/
theorem any_isR2t_dataIn {ps : List DataInPdu} {sent : List PduOut}
    (h : sent <+: ps.map PduOut.dataIn) : ¬ sent.any PduOut.isR2t = true := by
  rw [List.any_eq_true]
  rintro ⟨p, hp, h_r2t⟩
  obtain ⟨d, -, rfl⟩ := List.mem_map.mp (h.subset hp)
  exact absurd h_r2t (by simp [PduOut.isR2t])

/-- **Data in a buffer.** It is sent unless there is none, or none is expected.
A send that fails cuts it off, and is the only failure there can be. -/
theorem sends_dataIn (replyTo : Header) (data : Bytes) (c : Conn β) :
    ∃ ifr c' ps, emitReplies T [.dataIn replyTo data] .ok c = (ifr, c') ∧
      (ifr = .ok ∨ ifr = .connection) ∧ c.scsi.Sends c'.scsi ps ∧
      ((data = [] ∨ replyTo.getExpDatLen = 0) ∧ ps = [] ∨
        ¬ (data = [] ∨ replyTo.getExpDatLen = 0) ∧ Answered T replyTo False ps) := by
  obtain ⟨h_numbers, h_nil, h_status⟩ := dataInGet_spec (T := T) replyTo data c.ses
  have h_emit : emitReplies T [.dataIn replyTo data] .ok c =
      ((emitPdus T ((dataInGet T replyTo data c.ses).1.map .dataIn) .ok c.scsi).1,
        { scsi := (emitPdus T ((dataInGet T replyTo data c.ses).1.map .dataIn) .ok c.scsi).2
          ses := (dataInGet T replyTo data c.ses).2 }) := rfl
  generalize (dataInGet T replyTo data c.ses).1 = pdus at h_numbers h_nil h_status h_emit
  obtain ⟨sent, h_sends, h_prefix, h_rest⟩ := sends_emitPdus (T := T) (pdus.map .dataIn) c.scsi
  refine ⟨_, _, sent, h_emit, ?_, h_sends, ?_⟩
  · rcases h_rest with ⟨-, h⟩ | ⟨-, h, -⟩
    · exact .inl h
    · exact .inr h
  by_cases h_none : data = [] ∨ replyTo.getExpDatLen = 0
  · -- `get` makes no PDU
    have h_pdus : pdus = [] := h_nil.mpr h_none
    rw [h_pdus, List.map_nil, List.prefix_nil] at h_prefix
    exact .inl ⟨h_none, h_prefix⟩
  · -- what has been sent is a beginning of what `get` makes, all of it unless a send fails
    refine .inr ⟨h_none, ?_⟩
    have h_all : AnswerTo T replyTo (pdus.map .dataIn) := by
      refine ⟨fun p hp => ?_, ?_⟩
      · obtain ⟨d, hd, rfl⟩ := List.mem_map.mp hp
        exact congrArg some (h_numbers d hd)
      · rw [countP_dataIn, h_status]
        split <;> omega
    refine ⟨h_all.of_sublist h_prefix.sublist, ?_, iff_of_false (any_isR2t_dataIn h_prefix) id,
      False.elim, fun h_conn _ => ?_⟩
    · rcases h_rest with ⟨rfl, -⟩ | ⟨h, -⟩
      · rw [ne_eq, List.map_eq_nil_iff]
        exact fun h => h_none (h_nil.mp h)
      · exact h
    · rcases h_rest with ⟨rfl, -⟩ | ⟨-, -, h⟩
      · rw [countP_dataIn, h_status, if_neg h_none]
      · exact absurd h_conn h

/-! ### Data on the medium -/

theorem Scsi.sends_read (s : Scsi β) (blockNr : UInt64) (n : UInt32) :
    s.Sends (s.read T blockNr n).2 [] := by
  by_cases hl : s.lockingStatus T = .lockedOther
  · rw [read_of_locked hl]
    exact .refl s
  · rw [read_of_unlocked hl]
    exact ⟨_, rfl, rfl⟩

theorem sends_streamRead (s : Scsi β) (lba : UInt64) (n : UInt32) :
    s.Sends (streamRead T s lba n).2 [] := by
  unfold streamRead
  split
  · have h_sends := s.sends_read (T := T) lba 1
    rcases h : s.read T lba 1 with ⟨_ | _, s'⟩ <;> (rw [h] at h_sends; exact h_sends)
  · have h_sends := s.sends_read (T := T) lba (UInt32.ofNat (n.toNat / T.blockSize))
    rcases h : s.read T lba (UInt32.ofNat (n.toNat / T.blockSize)) with ⟨_ | _, s'⟩ <;>
      (rw [h] at h_sends; exact h_sends)

/-- What the streaming loop has sent when it ends with `ifr`. All of it bears
the numbers of the command, and the status is on the last Data-In, so that it is
missing when a read fails on the way. -/
inductive Streamed (T : Target β) (h : Header) : FailReason → List PduOut → Prop
  /-- Everything has been sent, the last Data-In with the status. -/
  | all {ps : List PduOut} (h_numbers : ∀ p ∈ ps, p.numbers = some (numbersFor T h))
    (h_r2t : ps.any PduOut.isR2t = false)
    (h_status : ps.countP PduOut.bearsStatus = 1) : Streamed T h .ok ps
  /-- A read failed, and no status has been sent. -/
  | readFailed {ps : List PduOut} (h_numbers : ∀ p ∈ ps, p.numbers = some (numbersFor T h))
    (h_r2t : ps.any PduOut.isR2t = false)
    (h_status : ps.countP PduOut.bearsStatus = 0) : Streamed T h .ioError ps
  | sendFailed {ps : List PduOut} (h_answer : AnswerTo T h ps) (h_ne : ps ≠ [])
    (h_r2t : ps.any PduOut.isR2t = false) (h_conn : ¬ T.Connected) : Streamed T h .connection ps

/-- A Data-In without status in front of what the rest of the loop sends. The
outcome is that of the rest. -/
theorem Streamed.cons {h : Header} {ifr : FailReason} {ps : List PduOut} (hs : Streamed T h ifr ps)
    {p : DataInPdu} (h_numbers : p.numbers = numbersFor T h) (h_status : p.statusBit = false) :
    Streamed T h ifr (.dataIn p :: ps) := by
  have h_mem : ∀ rs : List PduOut, (∀ r ∈ rs, r.numbers = some (numbersFor T h)) →
      ∀ r ∈ PduOut.dataIn p :: rs, r.numbers = some (numbersFor T h) := by
    intro rs h_rs
    exact List.forall_mem_cons.mpr ⟨congrArg some h_numbers, h_rs⟩
  have h_count : (PduOut.dataIn p :: ps).countP PduOut.bearsStatus =
      ps.countP PduOut.bearsStatus :=
    List.countP_cons_of_neg (by simp [PduOut.bearsStatus, h_status])
  -- each way the rest can end is also a way for the whole
  cases hs with
  | all h_n h_r h_s =>
    exact .all (h_mem ps h_n) (by simpa [PduOut.isR2t] using h_r) (h_count.trans h_s)
  | readFailed h_n h_r h_s =>
    exact .readFailed (h_mem ps h_n) (by simpa [PduOut.isR2t] using h_r) (h_count.trans h_s)
  | sendFailed h_a h_ne h_r h_conn =>
    exact .sendFailed ⟨h_mem ps h_a.numbers, h_count.trans_le h_a.one⟩ (List.cons_ne_nil _ _)
      (by simpa [PduOut.isR2t] using h_r) h_conn

variable (T) in
/-- The Data-In of one turn, and the session after it. It is the last one when
it reaches the end of what is to be sent, and then it has the residual as well. -/
def StreamParams.dataIn (p : StreamParams) (ses : Session) (offset : UInt32) (payload : Bytes) :
    DataInPdu × Session :=
  let lastBlock := offset + p.currentN ses offset == p.offsetEnd
  genDataInPdu T ses p.replyTo
    (if lastBlock then residualOf p.scsiHas.toNat p.iscsiWants.toNat else none)
    offset (p.currentN ses offset) lastBlock payload

/-- Where the loop goes on: not behind the end. -/
theorem toNat_add_currentN {p : StreamParams} {ses : Session} {offset : UInt32}
    (h : offset < p.offsetEnd) :
    (offset + p.currentN ses offset).toNat = offset.toNat + (p.currentN ses offset).toNat ∧
      offset.toNat + (p.currentN ses offset).toNat ≤ p.offsetEnd.toNat := by
  have h_n := @toNat_currentN p ses offset h
  have h_lt := p.offsetEnd.toNat_lt
  have h_off : offset.toNat < p.offsetEnd.toNat := UInt32.lt_iff_toNat_lt.mp h
  unfold StreamParams.left at h_n
  rw [UInt32.toNat_add]
  omega

/-- Nothing is left to send. -/
theorem streamLoop_of_not_lt {p : StreamParams} {fuel : ℕ} {offset : UInt32} {lba : UInt64}
    {c c' : Conn β} {ifr : FailReason} (h_end : ¬ offset < p.offsetEnd)
    (h : streamLoop T p fuel .ok offset lba c = .ok (ifr, c')) : ifr = .ok ∧ c' = c := by
  cases fuel with
  | zero => exact nomatch h
  | succ fuel =>
    rw [streamLoop, if_neg h_end] at h
    obtain ⟨rfl, rfl⟩ := Prod.mk.inj (Except.ok.inj h)
    exact ⟨rfl, rfl⟩

/-- What one turn of the streaming loop comes to. A failed read and a failed
send both end the loop, but the sequence number is used up in either case; only
a turn with neither is followed by another. -/
inductive StreamTurn (T : Target β) (p : StreamParams) (fuel : ℕ) (offset : UInt32)
    (lba : UInt64) (c : Conn β) : FailReason → Conn β → Prop
  | readFailed {rc : RwResult} {s' : Scsi β}
    (h_read : streamRead T c.scsi lba (p.currentN c.ses offset) = (.error rc, s')) :
    StreamTurn T p fuel offset lba c .ioError
      { scsi := s', ses := (c.ses.getIncDatasn p.replyTo.getItasktag).2 }
  | sendFailed {payload : Bytes} {s' : Scsi β}
    (h_read : streamRead T c.scsi lba (p.currentN c.ses offset) = (.ok payload, s'))
    (h_send : T.send s'.history = false) :
    StreamTurn T p fuel offset lba c .connection
      { scsi := s'.note (.sent (.dataIn (p.dataIn T c.ses offset payload).1) false)
        ses := (c.ses.getIncDatasn p.replyTo.getItasktag).2 }
  | next {payload : Bytes} {s' : Scsi β} {ifr : FailReason} {c' : Conn β}
    (h_read : streamRead T c.scsi lba (p.currentN c.ses offset) = (.ok payload, s'))
    (h_send : T.send s'.history = true)
    (h_rest : streamLoop T p fuel .ok (offset + p.currentN c.ses offset)
      (lba + (UInt32.ofNat ((p.currentN c.ses offset).toNat / T.blockSize)).toUInt64)
      { scsi := s'.note (.sent (.dataIn (p.dataIn T c.ses offset payload).1) true)
        ses := (c.ses.getIncDatasn p.replyTo.getItasktag).2 } = .ok (ifr, c')) :
    StreamTurn T p fuel offset lba c ifr c'

theorem streamTurn_of_loop {p : StreamParams} {fuel : ℕ} {offset : UInt32} {lba : UInt64}
    {c c' : Conn β} {ifr : FailReason} (h_more : offset < p.offsetEnd)
    (h : streamLoop T p (fuel + 1) .ok offset lba c = .ok (ifr, c')) :
    StreamTurn T p fuel offset lba c ifr c' := by
  rw [streamLoop, if_pos h_more] at h
  dsimp only at h
  -- the read, and after a read that works the send
  cases h_read : streamRead T c.scsi lba (p.currentN c.ses offset) with
  | mk result s' =>
    rw [h_read] at h
    cases result with
    | error rc =>
      obtain ⟨rfl, rfl⟩ := Prod.mk.inj (Except.ok.inj h)
      exact .readFailed h_read
    | ok payload =>
      cases h_send : T.send s'.history with
      | false =>
        simp only [sendPdu, h_send] at h
        obtain ⟨rfl, rfl⟩ := Prod.mk.inj (Except.ok.inj h)
        exact .sendFailed h_read h_send
      | true =>
        simp only [sendPdu, h_send] at h
        exact .next h_read h_send h

/-- The loop goes on unless that was the last turn. -/
theorem add_currentN_lt {p : StreamParams} {ses : Session} {offset : UInt32}
    (h : offset < p.offsetEnd) (h_last : offset + p.currentN ses offset ≠ p.offsetEnd) :
    offset + p.currentN ses offset < p.offsetEnd := by
  obtain ⟨h_next, h_le⟩ := @toNat_add_currentN p ses offset h
  rw [UInt32.lt_iff_toNat_lt, h_next]
  refine lt_of_le_of_ne h_le fun h_eq => h_last (UInt32.toNat_inj.mp ?_)
  rw [h_next, h_eq]

/-- **The streaming loop**: one Data-In for each turn, the last one with the
status. By induction on the fuel: the turn at hand sends one, and the rest is
the loop from the next offset on. -/
theorem sends_streamLoop {p : StreamParams} {fuel : ℕ} :
    ∀ {offset : UInt32} {lba : UInt64} {c c' : Conn β} {ifr : FailReason},
      offset < p.offsetEnd → streamLoop T p fuel .ok offset lba c = .ok (ifr, c') →
      ∃ ps, c.scsi.Sends c'.scsi ps ∧ Streamed T p.replyTo ifr ps := by
  -- on the turns that are left; only the last turn sets the status bit, and it is the last because
  -- the offset is at its end
  induction fuel with
  | zero => intro offset lba c c' ifr _ h; exact nomatch h
  | succ fuel ih =>
    intro offset lba c c' ifr h_more h
    have h_reads := sends_streamRead (T := T) c.scsi lba (p.currentN c.ses offset)
    have h_sent (s : Scsi β) (d : DataInPdu) (ok : Bool) :
        s.Sends (s.note (.sent (.dataIn d) ok)) [.dataIn d] := ⟨_, rfl, rfl⟩
    have h_numbers (payload : Bytes) : (p.dataIn T c.ses offset payload).1.numbers =
      numbersFor T p.replyTo := rfl
    have h_bit (payload : Bytes) : (p.dataIn T c.ses offset payload).1.statusBit =
      (offset + p.currentN c.ses offset == p.offsetEnd) := rfl
    cases streamTurn_of_loop h_more h with
    | readFailed h_read =>
      rw [h_read] at h_reads
      exact ⟨[], h_reads, .readFailed (by simp) rfl rfl⟩
    | @sendFailed payload s' h_read h_send =>
      rw [h_read] at h_reads
      refine ⟨_, h_reads.after (h_sent _ _ _), .sendFailed
        (.single (congrArg some (h_numbers payload))) (List.cons_ne_nil _ _) rfl fun h_conn => ?_⟩
      exact absurd ((h_conn s'.history).symm.trans h_send) (by simp)
    | next h_read h_send h_rest =>
      rw [h_read] at h_reads
      by_cases h_last : offset + p.currentN c.ses offset = p.offsetEnd
      · -- this was the last turn
        obtain ⟨rfl, rfl⟩ :=
          streamLoop_of_not_lt (by rw [h_last]; exact UInt32.lt_irrefl _) h_rest
        refine ⟨_, h_reads.after (h_sent _ _ _), .all (by simp [PduOut.numbers, h_numbers]) rfl ?_⟩
        simp [PduOut.bearsStatus, h_bit, h_last]
      · obtain ⟨ps, h_ps, h_streamed⟩ := ih (add_currentN_lt h_more h_last) h_rest
        refine ⟨_, (h_reads.after (h_sent _ _ _)).trans h_ps, h_streamed.cons (h_numbers _) ?_⟩
        rw [h_bit, beq_eq_false_iff_ne]
        exact h_last

/-- **A streamed answer**, with what the handler adds to it. After a failed read
that is a SCSI Response, so that there is one status in either case. -/
theorem sends_streamed {q : Pdu} {ifr : FailReason} {c c' : Conn β} {ps : List PduOut}
    (hs : Streamed T q.bhs ifr ps) (h_ps : c.scsi.Sends c'.scsi ps) :
    ∃ r c'' rs, replyToFailure T c' (some q) ifr = .ok (r, c'') ∧ c.scsi.Sends c''.scsi rs ∧
      Answered T q.bhs False rs := by
  cases hs with
  -- the handler has nothing to add
  | all h_numbers h_r2t h_status =>
    refine ⟨_, _, ps, replyToFailure_ok _ _, h_ps, ⟨h_numbers, h_status.le⟩, ?_,
      iff_of_false (by simp [h_r2t]) id, False.elim, fun _ _ => h_status⟩
    rintro rfl
    exact absurd h_status (by simp)
  -- the handler answers an I/O error with a SCSI Response, which is the status
  | readFailed h_numbers h_r2t h_status =>
    refine ⟨_, _, ps ++ [_], replyToFailure_ioError c' q, h_ps.trans (Conn.sends_emit _ _),
      ⟨?_, ?_⟩, by simp, iff_of_false ?_ id, False.elim, fun _ _ => ?_⟩
    · intro p hp
      rcases List.mem_append.mp hp with hp | hp
      · exact h_numbers p hp
      · obtain rfl := List.mem_singleton.mp hp
        rfl
    · rw [List.countP_append, h_status]
      rfl
    · rw [List.any_append, h_r2t]
      simp [PduOut.isR2t]
    · rw [List.countP_append, h_status]
      rfl
  -- the connection is lost, nothing is sent any more
  | sendFailed h_answer h_ne h_r2t h_conn =>
    exact ⟨_, _, ps, replyToFailure_connection _ _, h_ps, h_answer, h_ne,
      iff_of_false (by simp [h_r2t]) id, False.elim, fun h _ => absurd h h_conn⟩

/-! ### Whether the loop ends -/

/-- With room in a Data-In the loop ends. Each turn gets ahead by one byte at
least, so that what is left bounds the turns. -/
theorem streamLoop_isOk_of_pos {p : StreamParams} (h_buf : 0 < p.bufferN) {fuel : ℕ} :
    ∀ {offset : UInt32} {lba : UInt64} {c : Conn β}, 0 < c.ses.maxSegLen.toNat →
      p.left offset < fuel → ∃ r, streamLoop T p fuel .ok offset lba c = .ok r := by
  induction fuel with
  | zero => intro offset lba c _ h; exact absurd h (Nat.not_lt_zero _)
  | succ fuel ih =>
    intro offset lba c h_seg h_fuel
    rw [streamLoop]
    by_cases h_more : offset < p.offsetEnd
    swap
    · rw [if_neg h_more]
      exact ⟨_, rfl⟩
    rw [if_pos h_more]
    dsimp only
    generalize streamRead T c.scsi lba (p.currentN c.ses offset) = r
    obtain ⟨result, s'⟩ := r
    cases result with
    | error rc => exact ⟨_, rfl⟩
    | ok payload =>
      dsimp only [sendPdu]
      cases T.send s'.history with
      | false => exact ⟨_, rfl⟩
      | true =>
        refine ih (by rw [maxSegLen_genDataInPdu]; exact h_seg) ?_
        -- what is left gets less
        rw [left_add_currentN h_more, toNat_currentN h_more, StreamParams.cap]
        have h_left : 0 < p.left offset := Nat.sub_pos_of_lt (UInt32.lt_iff_toNat_lt.mp h_more)
        omega

/-- The device after reading the same block `k` times. -/
def rereads (T : Target β) (lba : UInt64) (k : ℕ) (d : β) : β :=
  (fun d => (T.backend.read d lba 1).2)^[k] d

/-- Reading the same block never fails. -/
def ReadsForever (T : Target β) (lba : UInt64) (d : β) : Prop :=
  ∀ k, (T.backend.read (rereads T lba k d) lba 1).1 ≠ none

/-- A turn in which nothing fails. It goes on behind the segment, and the trace
is longer by one event. -/
theorem streamLoop_next {p : StreamParams} {offset : UInt32} {lba : UInt64} {c : Conn β}
    {payload : Bytes} {s' : Scsi β} (h_more : offset < p.offsetEnd)
    (h_read : streamRead T c.scsi lba (p.currentN c.ses offset) = (.ok payload, s'))
    (h_send : T.send s'.history = true) :
    ∃ c' e, (∀ fuel, streamLoop T p (fuel + 1) .ok offset lba c =
        streamLoop T p fuel .ok (offset + p.currentN c.ses offset)
          (lba + (UInt32.ofNat ((p.currentN c.ses offset).toNat / T.blockSize)).toUInt64) c') ∧
      c'.ses.maxSegLen = c.ses.maxSegLen ∧ c'.scsi = s'.note e := by
  refine ⟨{ scsi := s'.note (.sent (.dataIn (p.dataIn T c.ses offset payload).1) true)
            ses := (p.dataIn T c.ses offset payload).2 }, _, fun fuel => ?_, ?_, rfl⟩
  · rw [streamLoop, if_pos h_more]
    simp only [h_read, sendPdu, h_send]
    rfl
  · exact maxSegLen_getIncDatasn c.ses p.replyTo.getItasktag

/-- One turn of a loop that does not get ahead. It reads a block for a segment
of no bytes, and goes on at the same place unless the read fails. -/
theorem streamLoop_stuck {p : StreamParams} (h_conn : T.Connected) {offset : UInt32} {lba : UInt64}
    {c : Conn β} (h_more : offset < p.offsetEnd) (h_seg : c.ses.maxSegLen = 0)
    (hl : c.scsi.lockingStatus T ≠ .lockedOther) :
    ((T.backend.read c.scsi.disk lba 1).1 = none ∧
      ∀ fuel, ∃ r, streamLoop T p (fuel + 1) .ok offset lba c = .ok r) ∨
    ((T.backend.read c.scsi.disk lba 1).1 ≠ none ∧
      ∃ c', (∀ fuel, streamLoop T p (fuel + 1) .ok offset lba c =
        streamLoop T p fuel .ok offset lba c') ∧ c'.ses.maxSegLen = 0 ∧
      c'.scsi.lockingStatus T ≠ .lockedOther ∧
      c'.scsi.disk = (T.backend.read c.scsi.disk lba 1).2) := by
  -- a segment length of zero makes every turn one of zero bytes
  have h_n : p.currentN c.ses offset = 0 := by
    refine UInt32.toNat_inj.mp ?_
    rw [toNat_currentN h_more, StreamParams.cap, h_seg]
    simp
  have h_read : streamRead T c.scsi lba 0 = streamRead T c.scsi lba 0 := rfl
  conv_rhs at h_read =>
    rw [streamRead, UInt32.toNat_zero, if_pos T.blockSize_pos, Scsi.read_of_unlocked hl]
  cases h_buf : (T.backend.read c.scsi.disk lba 1).1 with
  | none =>
    refine .inl ⟨rfl, fun fuel => ?_⟩
    rw [h_buf] at h_read
    rw [streamLoop, if_pos h_more]
    dsimp only
    rw [h_n, h_read]
    exact ⟨_, rfl⟩
  | some buf =>
    refine .inr ⟨by simp, ?_⟩
    rw [h_buf] at h_read
    dsimp only at h_read
    rw [← h_n] at h_read
    -- the next turn starts where this one did
    obtain ⟨c', e, h_run, h_seg', h_scsi⟩ := streamLoop_next h_more h_read (h_conn _)
    have h_div : (UInt32.ofNat ((0 : UInt32).toNat / T.blockSize)).toUInt64 = 0 := by simp
    refine ⟨c', fun fuel => ?_, h_seg'.trans h_seg, ?_, ?_⟩
    · rw [h_run, h_n, h_div, UInt32.add_zero, UInt64.add_zero]
    · rw [h_scsi]
      exact hl
    · rw [h_scsi]
      rfl

/-- **A loop that does not get ahead** ends only when a read fails. Every turn
makes the same request, so that what counts is the next outcomes of the backend. -/
theorem streamLoop_isOk_of_zero {p : StreamParams} (h_conn : T.Connected) {offset : UInt32}
    {lba : UInt64} (h_more : offset < p.offsetEnd) :
    ∀ {c : Conn β}, c.ses.maxSegLen = 0 → c.scsi.lockingStatus T ≠ .lockedOther →
      ((∃ fuel r, streamLoop T p fuel .ok offset lba c = .ok r) ↔
        ¬ ReadsForever T lba c.scsi.disk) := by
  intro c h_seg hl
  constructor
  · rintro ⟨fuel, r, h⟩ h_forever
    -- on the turns it takes: each one is spent on a read that works
    induction fuel generalizing c with
    | zero => exact nomatch h
    | succ fuel ih =>
      rcases streamLoop_stuck (p := p) h_conn h_more h_seg hl with
        ⟨h_none, -⟩ | ⟨-, c', h_run, h_seg', hl', h_disk⟩
      · exact h_forever 0 h_none
      · rw [h_run] at h
        refine ih h_seg' hl' h fun k => ?_
        rw [h_disk]
        exact h_forever (k + 1)
  · intro h_forever
    unfold ReadsForever at h_forever
    push Not at h_forever
    obtain ⟨k, h_k⟩ := h_forever
    -- on the reads before the first one that fails
    induction k generalizing c with
    | zero =>
      rcases streamLoop_stuck (p := p) h_conn h_more h_seg hl with ⟨-, h_run⟩ | ⟨h_some, -⟩
      · obtain ⟨r, h_r⟩ := h_run 0
        exact ⟨1, r, h_r⟩
      · exact absurd h_k h_some
    | succ k ih =>
      rcases streamLoop_stuck (p := p) h_conn h_more h_seg hl with
        ⟨-, h_run⟩ | ⟨-, c', h_run, h_seg', hl', h_disk⟩
      · obtain ⟨r, h_r⟩ := h_run 0
        exact ⟨1, r, h_r⟩
      · obtain ⟨fuel, r, h_r⟩ := ih h_seg' hl' (by rw [h_disk]; exact h_k)
        exact ⟨fuel + 1, r, by rw [h_run, h_r]⟩

end IscsiTarget
