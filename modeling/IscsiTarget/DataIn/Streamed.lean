import IscsiTarget.DataIn.Layout

/-!
# How the streaming loop cuts a range

`streamLoop_fills` follows the loop through its turns: the Data-Ins that are sent fill the first
places of the cut range, all of them when nothing fails, and the residual is on the last one.
`streamLoop_counts` is about their DataSNs. It holds even for a loop that does not get ahead,
because no room has been negotiated.

`streamed_structure` puts this together for a READ. When the initiator expects nothing, no
Data-In is sent, and the one SCSI Response has the residual: all the bytes of the range.
-/

namespace IscsiTarget

open Segments

variable {β : Type} {T : Target β}

/-! ### Residuals -/

/-- The residual of a Data-In. -/
def DataInPdu.Reports (d : DataInPdu) (r : Option (Residual × UInt32)) : Prop :=
  d.overflow = r.any (·.1 == .overflow) ∧ d.underflow = r.any (·.1 == .underflow) ∧
    d.residualCt = (r.map (·.2)).getD 0

/-- The Data-In says that `expected` bytes were expected and the answer has
`has` of them. -/
structure DataInPdu.ReportsLengths (d : DataInPdu) (expected has : ℕ) : Prop where
  underflow : d.underflow = true ↔ has < expected
  overflow : d.overflow = true ↔ expected < has
  count : d.residualCt.toNat = (expected - has) + (has - expected)

/-- The Data-In has no residual. -/
structure DataInPdu.ReportsNothing (d : DataInPdu) : Prop where
  underflow : d.underflow = false
  overflow : d.overflow = false
  count : d.residualCt = 0

/-- The last Data-In, and no other, has the residual of `has` bytes where
`expected` were expected. -/
def ResidualAtEnd (expected has : ℕ) (ps : List DataInPdu) : Prop :=
  ∀ pre p post, ps = pre ++ p :: post →
    (post = [] → p.ReportsLengths expected has) ∧ (post ≠ [] → p.ReportsNothing)

/-- GOOD for the command, with `n` bytes that nobody has asked for: the O bit
and the residual count, without the U bit. -/
structure ScsiResponsePdu.OverflowsBy (r : ScsiResponsePdu) (q : Pdu) (n : ℕ) : Prop where
  task : r.itasktag = q.bhs.getItasktag
  status : r.status = 0
  overflow : r.overflow = true
  underflow : r.underflow = false
  count : r.residualCt.toNat = n

theorem overflowsBy_residualOf (q : Pdu) {n : ℕ} (h_pos : 0 < n) (h_lt : n < 2 ^ 32) :
    (ScsiResponsePdu.set T q.bhs [] (residualOf n 0) none).OverflowsBy q n := by
  have h_residual : residualOf n 0 = some (.overflow, UInt32.ofNat n) := by
    unfold residualOf
    rw [if_neg (Nat.not_lt_zero n), if_pos h_pos, Nat.sub_zero]
  rw [h_residual]
  exact ⟨rfl, rfl, rfl, rfl, toNat_ofNat_32 h_lt⟩

theorem DataInPdu.Reports.lengths {d : DataInPdu} {has expected : ℕ}
    (h_has : has < 2 ^ 32) (h_expected : expected < 2 ^ 32)
    (h : d.Reports (residualOf has expected)) : d.ReportsLengths expected has := by
  obtain ⟨h_over, h_under, h_count⟩ := h
  unfold residualOf at h_over h_under h_count
  by_cases h_lt : has < expected
  · -- less than expected: an underflow
    rw [if_pos h_lt] at h_over h_under h_count
    refine ⟨by simp [h_under, h_lt], by simp [h_over]; omega, ?_⟩
    rw [h_count]
    refine (toNat_ofNat_32 (by omega)).trans ?_
    omega
  rw [if_neg h_lt] at h_over h_under h_count
  by_cases h_gt : has > expected
  · -- more: an overflow
    rw [if_pos h_gt] at h_over h_under h_count
    refine ⟨by simp [h_under, h_lt], by simp [h_over, h_gt], ?_⟩
    rw [h_count]
    refine (toNat_ofNat_32 (by omega)).trans ?_
    omega
  · -- as much, and nothing is reported
    rw [if_neg h_gt] at h_over h_under h_count
    refine ⟨by simp [h_under, h_lt], by simp [h_over]; omega, ?_⟩
    rw [h_count]
    change 0 = _
    omega

theorem DataInPdu.Reports.nothing {d : DataInPdu} (h : d.Reports none) : d.ReportsNothing :=
  ⟨h.2.1, h.1, h.2.2⟩

/-! ### One turn -/

/-- A read that succeeds delivers as many blocks as it was asked for. -/
def Backend.ReadsBlocks (B : Backend β) : Prop :=
  ∀ d blockNr n buf, (B.read d blockNr n).1 = some buf → buf.length = n.toNat * B.getBlockSize

theorem Scsi.length_read (hB : T.backend.ReadsBlocks) {s s' : Scsi β} {lba : UInt64} {n : UInt32}
    {buf : Bytes} (h : s.read T lba n = (.ok buf, s')) : buf.length = n.toNat * T.blockSize := by
  -- a reserved device reads nothing
  by_cases hl : s.lockingStatus T = .lockedOther
  · rw [read_of_locked hl] at h
    cases h
  · rw [read_of_unlocked hl] at h
    cases h_buf : (T.backend.read s.disk lba n).1 with
    | none =>
      rw [h_buf] at h
      cases h
    | some buf' =>
      rw [h_buf] at h
      obtain rfl := Except.ok.inj (Prod.mk.inj h).1
      exact hB _ _ _ _ h_buf

/-- What is read for a segment is as long as the segment. The blocks are read as
a whole, and the rest of the last one is cut off. -/
theorem length_streamRead (hB : T.backend.ReadsBlocks) {s s' : Scsi β} {lba : UInt64}
    {n : UInt32} {payload : Bytes} (h : streamRead T s lba n = (.ok payload, s')) :
    payload.length = n.toNat := by
  have h_bs := T.blockSize_pos
  unfold streamRead at h
  split at h
  · next h_part =>
    -- a part of a block, cut off the one that is read
    rcases h_read : s.read T lba 1 with ⟨rc | buf, s''⟩
    · rw [h_read] at h
      cases h
    · rw [h_read] at h
      have h_len := Scsi.length_read hB h_read
      rw [← Except.ok.inj (Prod.mk.inj h).1, List.length_take, h_len]
      change min _ (1 * _) = _
      omega
  · -- whole blocks, put into a buffer of the segment's length
    rcases h_read : s.read T lba (UInt32.ofNat (n.toNat / T.blockSize)) with ⟨rc | buf, s''⟩
    · rw [h_read] at h
      cases h
    · rw [h_read] at h
      have h_len := Scsi.length_read hB h_read
      rw [toNat_ofNat_32 ((Nat.div_le_self _ _).trans_lt n.toNat_lt)] at h_len
      have h_le := Nat.div_mul_le_self n.toNat T.blockSize
      have h_zeros : (zeros n.toNat).length = n.toNat := List.length_replicate
      rw [← Except.ok.inj (Prod.mk.inj h).1, length_poke (by rw [h_zeros, h_len]; omega), h_zeros]

/-- The Data-In of the place, with the residual when it is the last. -/
def StreamParams.Matches (p : StreamParams) (d : DataInPdu) (s : Slot) : Prop :=
  d.Fills s ∧ d.Reports (if s.last then residualOf p.scsiHas.toNat p.iscsiWants.toNat else none)

/-- The place of the next segment, and the others. It is the last one when the
rest fits into it. -/
theorem slots_of_more {p : StreamParams} {ses : Session} {offset : UInt32}
    (hcap : 0 < p.cap ses) (h_more : offset < p.offsetEnd) :
    slots offset.toNat (cut (p.cap ses) (p.left offset)) =
      { offset := offset.toNat
        length := (p.currentN ses offset).toNat
        last := offset + p.currentN ses offset == p.offsetEnd } ::
        slots (offset + p.currentN ses offset).toNat
          (cut (p.cap ses) (p.left (offset + p.currentN ses offset))) := by
  have h_left : 0 < p.left offset := Nat.sub_pos_of_lt (UInt32.lt_iff_toNat_lt.mp h_more)
  have h_n := @toNat_currentN p ses offset h_more
  obtain ⟨h_next, h_le⟩ := @toNat_add_currentN p ses offset h_more
  -- the turn is the last one when what is left fits into a segment
  have h_last : (offset + p.currentN ses offset == p.offsetEnd) =
      decide (p.left offset ≤ p.cap ses) := by
    rw [Bool.eq_iff_iff, beq_iff_eq, decide_eq_true_iff, ← UInt32.toNat_inj, h_next, h_n]
    unfold StreamParams.left at h_left ⊢
    omega
  rw [slots_cut_of_pos hcap h_left, left_add_currentN h_more, h_last, h_next, h_n]

theorem matches_dataIn (p : StreamParams) (ses : Session) (offset : UInt32) {payload : Bytes}
    (h_len : payload.length = (p.currentN ses offset).toNat) :
    p.Matches (p.dataIn T ses offset payload).1
      { offset := offset.toNat
        length := (p.currentN ses offset).toNat
        last := offset + p.currentN ses offset == p.offsetEnd } :=
  ⟨⟨rfl, h_len, rfl, rfl, rfl⟩, rfl, rfl, rfl⟩

/-! ### The loop -/

theorem sends_dataIn_event (s : Scsi β) (d : DataInPdu) (ok : Bool) :
    s.Sends (s.note (.sent (.dataIn d) ok)) ([d].map .dataIn) := ⟨_, rfl, rfl⟩

theorem cap_getIncDatasn (p : StreamParams) (ses : Session) (itt : UInt32) :
    p.cap (ses.getIncDatasn itt).2 = p.cap ses := by
  rw [StreamParams.cap, maxSegLen_getIncDatasn, StreamParams.cap]

/-- **The streaming loop** fills the first places of the range, and if nothing
fails all of them. -/
theorem streamLoop_fills (hB : T.backend.ReadsBlocks) {p : StreamParams} {fuel : ℕ} :
    ∀ {offset : UInt32} {lba : UInt64} {c c' : Conn β} {ifr : FailReason},
      offset < p.offsetEnd → 0 < p.cap c.ses →
      streamLoop T p fuel .ok offset lba c = .ok (ifr, c') →
      ∃ ds ss, c.scsi.Sends c'.scsi (ds.map .dataIn) ∧ List.Forall₂ p.Matches ds ss ∧
        ss <+: slots offset.toNat (cut (p.cap c.ses) (p.left offset)) ∧
        (ifr = .ok → ss = slots offset.toNat (cut (p.cap c.ses) (p.left offset))) := by
  induction fuel with
  | zero => intro offset lba c c' ifr _ _ h; cases h
  | succ fuel ih =>
    intro offset lba c c' ifr h_more hcap h
    have h_reads := sends_streamRead (T := T) c.scsi lba (p.currentN c.ses offset)
    rw [slots_of_more hcap h_more]
    cases streamTurn_of_loop h_more h with
    -- nothing is sent any more
    | readFailed h_read =>
      rw [h_read] at h_reads
      exact ⟨[], [], h_reads, .nil, List.nil_prefix, nofun⟩
    -- the segment counts as sent, and it is the last one
    | sendFailed h_read h_send =>
      rw [h_read] at h_reads
      refine ⟨_, _, h_reads.after (sends_dataIn_event _ _ _),
        .cons (matches_dataIn p c.ses offset (length_streamRead hB h_read)) .nil, ?_, nofun⟩
      exact List.cons_prefix_cons.mpr ⟨rfl, List.nil_prefix⟩
    | @next payload s' _ _ h_read h_send h_rest =>
      rw [h_read] at h_reads
      have h_first := matches_dataIn (T := T) p c.ses offset (length_streamRead hB h_read)
      have h_sent := h_reads.after (sends_dataIn_event _ (p.dataIn T c.ses offset payload).1 true)
      by_cases h_last : offset + p.currentN c.ses offset = p.offsetEnd
      · -- this was the last turn
        obtain ⟨rfl, rfl⟩ :=
          streamLoop_of_not_lt (by rw [h_last]; exact UInt32.lt_irrefl _) h_rest
        have h_none : p.left (offset + p.currentN c.ses offset) = 0 := by
          rw [h_last, StreamParams.left, Nat.sub_self]
        rw [h_none, cut_zero]
        exact ⟨_, _, h_sent, .cons h_first .nil, List.prefix_refl _, fun _ => rfl⟩
      · obtain ⟨ds, ss, h_ds, h_all, h_prefix, h_complete⟩ := ih (add_currentN_lt h_more h_last)
          (by rw [cap_getIncDatasn]; exact hcap) h_rest
        rw [cap_getIncDatasn] at h_prefix h_complete
        refine ⟨_ :: ds, _ :: ss, h_sent.trans h_ds, .cons h_first h_all,
          List.cons_prefix_cons.mpr ⟨rfl, h_prefix⟩, fun h_ok => ?_⟩
        rw [h_complete h_ok]

/-- **The DataSNs of the streaming loop** count up, from the one the session
hands out first. By induction on the turns; nothing else asks for a number on
the way. -/
theorem streamLoop_counts {p : StreamParams} {fuel : ℕ} :
    ∀ {offset : UInt32} {lba : UInt64} {c c' : Conn β} {ifr : FailReason},
      streamLoop T p fuel .ok offset lba c = .ok (ifr, c') →
      ∃ ds : List DataInPdu, c.scsi.Sends c'.scsi (ds.map .dataIn) ∧
        CountsFrom (c.ses.getIncDatasn p.replyTo.getItasktag).1 (ds.map DataInPdu.dataSN) := by
  induction fuel with
  | zero => intro offset lba c c' ifr h; cases h
  | succ fuel ih =>
    intro offset lba c c' ifr h
    by_cases h_more : offset < p.offsetEnd
    swap
    · obtain ⟨-, rfl⟩ := streamLoop_of_not_lt h_more h
      exact ⟨[], .refl _, trivial⟩
    have h_reads := sends_streamRead (T := T) c.scsi lba (p.currentN c.ses offset)
    cases streamTurn_of_loop h_more h with
    | readFailed h_read =>
      rw [h_read] at h_reads
      exact ⟨[], h_reads, trivial⟩
    | sendFailed h_read h_send =>
      rw [h_read] at h_reads
      exact ⟨_, h_reads.after (sends_dataIn_event _ _ _), rfl, trivial⟩
    | next h_read h_send h_rest =>
      rw [h_read] at h_reads
      obtain ⟨ds, h_ds, h_counts⟩ := ih h_rest
      -- the next number is one more, and the tag is still the last one
      rw [getIncDatasn_next] at h_counts
      exact ⟨_ :: ds, (h_reads.after (sends_dataIn_event _ _ _)).trans h_ds, rfl, h_counts⟩

/-! ### When nothing fails -/

theorem Target.Reliable.streamRead {good : β → Prop} (hT : T.Reliable good) {s : Scsi β}
    (h : good s.disk) (hl : s.lockingStatus T ≠ .lockedOther) (lba : UInt64) (n : UInt32) :
    ∃ payload s', IscsiTarget.streamRead T s lba n = (.ok payload, s') ∧ good s'.disk ∧
      s'.lockingStatus T ≠ .lockedOther := by
  -- every read works, and leaves a disk of which the same is true
  have h_read (k : UInt32) : ∃ buf s', s.read T lba k = (.ok buf, s') ∧ good s'.disk ∧
      s'.lockingStatus T ≠ .lockedOther := by
    obtain ⟨h_some, h_next⟩ := hT.read s.disk lba k h
    obtain ⟨buf, h_buf⟩ := Option.isSome_iff_exists.mp h_some
    rw [Scsi.read_of_unlocked hl, h_buf]
    exact ⟨buf, _, rfl, h_next, hl⟩
  unfold IscsiTarget.streamRead
  split
  · obtain ⟨buf, s', h_eq, h_rest⟩ := h_read 1
    exact ⟨_, s', by rw [h_eq], h_rest⟩
  · obtain ⟨buf, s', h_eq, h_rest⟩ := h_read (UInt32.ofNat (n.toNat / T.blockSize))
    exact ⟨_, s', by rw [h_eq], h_rest⟩

/-- A loop in which nothing fails sends everything. By induction on the fuel, a
turn with a good read and a good send being followed by another. -/
theorem streamLoop_reliable {good : β → Prop} (hT : T.Reliable good) {p : StreamParams}
    {fuel : ℕ} : ∀ {offset : UInt32} {lba : UInt64} {c c' : Conn β} {ifr : FailReason},
      good c.scsi.disk → c.scsi.lockingStatus T ≠ .lockedOther →
      streamLoop T p fuel .ok offset lba c = .ok (ifr, c') → ifr = .ok := by
  induction fuel with
  | zero => intro offset lba c c' ifr _ _ h; cases h
  | succ fuel ih =>
    intro offset lba c c' ifr h_good hl h
    by_cases h_more : offset < p.offsetEnd
    swap
    · exact (streamLoop_of_not_lt h_more h).1
    -- the read succeeds, and leaves a device on which the next one does
    obtain ⟨payload, s', h_ok, h_good', hl'⟩ :=
      hT.streamRead h_good hl lba (p.currentN c.ses offset)
    cases streamTurn_of_loop h_more h with
    | readFailed h_read => exact absurd (h_ok.symm.trans h_read) (by simp)
    | sendFailed h_read h_send => exact absurd ((hT.send _).symm.trans h_send) (by simp)
    | next h_read h_send h_rest =>
      obtain rfl := (Prod.mk.inj (h_ok.symm.trans h_read)).2
      exact ih h_good' hl' h_rest

variable {c : Conn β} {q : Pdu}

/-- What is left at the start of the loop. -/
theorem left_streamParamsOf (c : Conn β) (q : Pdu) :
    (streamParamsOf T c q).left 0 =
      min (T.nBytes q.bhs.getCdb.range.2 % 2 ^ 32) q.bhs.getExpDatLen.toNat := by
  rw [StreamParams.left, StreamParams.offsetEnd, UInt32.toNat_min]
  simp only [streamParamsOf, UInt32.toNat_ofNat']
  exact Nat.sub_zero _

theorem toNat_scsiHas_streamParamsOf (h_bytes : T.nBytes q.bhs.getCdb.range.2 < 2 ^ 32) :
    (streamParamsOf T c q).scsiHas.toNat = T.nBytes q.bhs.getCdb.range.2 :=
  toNat_ofNat_32 h_bytes

/-- A READ ends when nothing fails and there is room in a Data-In. -/
theorem serve_streams_ends (hop : q.bhs.getOpcode = .scsiCmd)
    (hs : c.scsi.Streams T q.bhs.getCdb) (h_seg : 1 ≤ c.ses.maxSegLen) {fuel : ℕ}
    (h_fuel : 2 ^ 32 ≤ fuel) : ∃ c', serve T fuel c q = .ok c' := by
  rw [serve_streams_isOk_iff hop hs]
  refine .inr (@streamLoop_isOk_of_pos _ T (streamParamsOf T c q) (bufferN_pos _) fuel 0
    q.bhs.getCdb.range.1 (c.receive q) (UInt32.le_iff_toNat_le.mp h_seg) ?_)
  rw [left_streamParamsOf]
  exact (min_le_right _ _).trans_lt (q.bhs.getExpDatLen.toNat_lt.trans_le h_fuel)

/-- **What a READ sends** when nothing fails: the Data-Ins for all the places,
or if nothing is expected a SCSI Response that says how much there would have
been. -/
theorem serve_streams_fills {good : β → Prop} {fuel : ℕ} {c' : Conn β}
    (hB : T.backend.ReadsBlocks) (hT : T.Reliable good) (h_good : good c.scsi.disk)
    (hop : q.bhs.getOpcode = .scsiCmd) (hs : c.scsi.Streams T q.bhs.getCdb)
    (h_free : c.scsi.lockingStatus T ≠ .lockedOther)
    (h_bytes : T.nBytes q.bhs.getCdb.range.2 < 2 ^ 32) (h_seg : 1 ≤ c.ses.maxSegLen)
    (h : serve T fuel c q = .ok c') :
    (q.bhs.getExpDatLen = 0 ∧ ∃ r : ScsiResponsePdu, c.scsi.Sends c'.scsi [.scsiResponse r] ∧
      r.OverflowsBy q (T.nBytes q.bhs.getCdb.range.2)) ∨
    (q.bhs.getExpDatLen ≠ 0 ∧ ∃ ds : List DataInPdu, c.scsi.Sends c'.scsi (ds.map .dataIn) ∧
      CountsFrom (c.ses.getIncDatasn q.bhs.getItasktag).1 (ds.map DataInPdu.dataSN) ∧
      List.Forall₂ (streamParamsOf T c q).Matches ds
        (slots 0 (cut (min c.ses.maxSegLen.toNat (bufferN T (c.receive q).scsi.history))
          (min (T.nBytes q.bhs.getCdb.range.2) q.bhs.getExpDatLen.toNat)))) := by
  have h_receive := c.sends_receive q
  have h_has : 0 < T.nBytes q.bhs.getCdb.range.2 :=
    Nat.mul_pos (Nat.pos_of_ne_zero fun h => hs.2.2 (UInt32.toNat_inj.mp h)) T.blockSize_pos
  have h_end : (streamParamsOf T c q).offsetEnd = 0 ↔ q.bhs.getExpDatLen = 0 := by
    rw [offsetEnd_streamParamsOf, Nat.mod_eq_of_lt h_bytes, or_iff_right h_has.ne']
  have h_left := left_streamParamsOf (T := T) c q
  rw [Nat.mod_eq_of_lt h_bytes] at h_left
  rw [serve_of_streams hop hs, streamData_eq] at h
  by_cases h_zero : q.bhs.getExpDatLen = 0
  · rw [if_pos (h_end.mpr h_zero)] at h
    change (replyToFailure T _ (some q) (sendReason _)).map (·.2) = .ok c' at h
    rw [replyToFailure_sendReason] at h
    obtain rfl := Except.ok.inj h
    refine .inl ⟨h_zero, _, h_receive.after (Conn.sends_emit _ _), ?_⟩
    have h_wants : (streamParamsOf T c q).iscsiWants.toNat = 0 := congrArg UInt32.toNat h_zero
    rw [h_wants, toNat_scsiHas_streamParamsOf h_bytes]
    exact overflowsBy_residualOf q h_has h_bytes
  rw [if_neg (mt h_end.mp h_zero)] at h
  have h_more : 0 < (streamParamsOf T c q).offsetEnd :=
    UInt32.pos_iff_ne_zero.mpr (mt h_end.mp h_zero)
  have hcap : 0 < (streamParamsOf T c q).cap c.ses :=
    lt_min (UInt32.le_iff_toNat_le.mp h_seg) (bufferN_pos _)
  cases h_loop : streamLoop T (streamParamsOf T c q) fuel .ok 0 q.bhs.getCdb.range.1
      (c.receive q) with
  | error f =>
    rw [h_loop] at h
    cases h
  | ok r =>
    obtain ⟨ifr, c₁⟩ := r
    rw [h_loop] at h
    -- nothing has failed, so that the handler adds nothing
    obtain rfl := streamLoop_reliable hT (c := c.receive q) h_good h_free h_loop
    change (replyToFailure T c₁ (some q) .ok).map (·.2) = .ok c' at h
    rw [replyToFailure_ok] at h
    obtain rfl := Except.ok.inj h
    obtain ⟨ds, ss, h_ds, h_all, -, h_complete⟩ :=
      streamLoop_fills hB (c := c.receive q) h_more hcap h_loop
    obtain ⟨ds', h_ds', h_counts⟩ := streamLoop_counts h_loop
    obtain rfl : ds = ds' :=
      List.map_injective_iff.mpr (fun _ _ h => PduOut.dataIn.inj h) (h_ds.unique h_ds')
    rw [h_complete rfl] at h_all
    change List.Forall₂ _ ds (slots 0 (cut _ ((streamParamsOf T c q).left 0))) at h_all
    rw [h_left] at h_all
    exact .inr ⟨h_zero, ds, h_receive.after h_ds, h_counts, h_all⟩

/-- The residual of a range whose length fits into 32 bits. It is in the Data-In
that ends the answer, and in no other. -/
theorem StreamParams.Matches.residualAtEnd {p : StreamParams} {ds : List DataInPdu}
    {lens : List ℕ} (h : List.Forall₂ p.Matches ds (slots 0 lens)) :
    ResidualAtEnd p.iscsiWants.toNat p.scsiHas.toNat ds := by
  rintro pre d post rfl
  obtain ⟨pre', s, post', h_slots, -, ⟨-, h_reports⟩, h_post⟩ := forall₂_split h
  have h_last := (slots_split h_slots).2
  have h_nil : post' = [] ↔ post = [] := by
    rw [← List.length_eq_zero_iff, ← List.length_eq_zero_iff, h_post.length_eq]
  -- the last place is the one with the residual
  constructor
  · intro h
    rw [if_pos (h_last.mpr (h_nil.mpr h))] at h_reports
    exact h_reports.lengths p.scsiHas.toNat_lt p.iscsiWants.toNat_lt
  · intro h
    rw [if_neg (fun h' => h (h_nil.mp (h_last.mp h')))] at h_reports
    exact h_reports.nothing

/-- **The structure of a streamed READ.** Nothing is expected, and one SCSI
Response is sent, with the whole range as its residual; or the Data-Ins are as
they have to be, with the residual on the last one. -/
theorem streamed_structure {good : β → Prop} (hB : T.backend.ReadsBlocks)
    (hT : T.Reliable good) (h_good : good c.scsi.disk) (hop : q.bhs.getOpcode = .scsiCmd)
    (hs : c.scsi.Streams T q.bhs.getCdb) (h_free : c.scsi.lockingStatus T ≠ .lockedOther)
    (h_bytes : T.nBytes q.bhs.getCdb.range.2 < 2 ^ 32) (h_seg : 1 ≤ c.ses.maxSegLen) :
    ∃ turns, ∀ fuel ≥ turns, ∃ c' ps, serve T fuel c q = .ok c' ∧ c.scsi.Sends c'.scsi ps ∧
      (q.bhs.getExpDatLen = 0 → ∃ r : ScsiResponsePdu, ps = [.scsiResponse r] ∧
        r.OverflowsBy q (T.nBytes q.bhs.getCdb.range.2)) ∧
      (q.bhs.getExpDatLen ≠ 0 → ∃ ds : List DataInPdu, ps = ds.map .dataIn ∧
        Segmented (min c.ses.maxSegLen.toNat (bufferN T (c.receive q).scsi.history))
          (min (T.nBytes q.bhs.getCdb.range.2) q.bhs.getExpDatLen.toNat) ds ∧
        ResidualAtEnd q.bhs.getExpDatLen.toNat (T.nBytes q.bhs.getCdb.range.2) ds) := by
  refine ⟨2 ^ 32, fun fuel h_fuel => ?_⟩
  -- with segments of a byte at least the loop ends
  obtain ⟨c', h_serve⟩ := serve_streams_ends hop hs h_seg h_fuel
  refine ⟨c', ?_⟩
  rcases serve_streams_fills hB hT h_good hop hs h_free h_bytes h_seg h_serve with
    ⟨h_zero, r, h_r, h_over⟩ | ⟨h_some, ds, h_ds, h_counts, h_all⟩
  · exact ⟨_, h_serve, h_r, fun _ => ⟨r, rfl, h_over⟩, fun h => absurd h_zero h⟩
  · -- the segments fill the range in order, so they are cut as they have to be
    refine ⟨_, h_serve, h_ds, fun h => absurd h h_some, fun _ => ⟨ds, rfl, ?_, ?_⟩⟩
    · exact .of_fills (lt_min (UInt32.le_iff_toNat_le.mp h_seg) (bufferN_pos _))
        (h_all.imp fun _ _ h => h.1) h_counts
    · have h_residual := StreamParams.Matches.residualAtEnd h_all
      rw [toNat_scsiHas_streamParamsOf h_bytes] at h_residual
      exact h_residual

theorem ramBackend_readsBlocks (bs : ℕ) (hpos : 0 < bs) (hlt : bs < 2 ^ 32) (size : UInt64) :
    (ramBackend bs hpos hlt size).ReadsBlocks := by
  intro r blockNr n buf h
  simp only [ramBackend, Ram.call] at h ⊢
  cases hs : r.script.headD true with
  | true =>
    rw [hs] at h
    rw [← Option.some.inj h, Medium.length_slice]
  | false =>
    rw [hs] at h
    cases h

theorem Sample.reliable (size : UInt64) : (target size).Reliable fun r => r.script = [] where
  send _ := rfl
  read := by
    intro r blockNr n h
    simp [target, ramBackend, Ram.call, h]

/-- READ(10) of two blocks of 16 bytes, of which 24 bytes are expected. -/
theorem streamed_structure_read :
    ∃ turns, ∀ fuel ≥ turns, ∃ c' ps, serve (Sample.target 8) fuel (Sample.conn 8 [])
        (Sample.command 5 24 (Sample.cdb10 0x28 0 2 2) []) = .ok c' ∧
      (Sample.conn 8 []).scsi.Sends c'.scsi ps ∧
      ∃ ds : List DataInPdu, ps = ds.map .dataIn ∧ Segmented (256 * 1024 * 1024) 24 ds ∧
        ResidualAtEnd 24 32 ds := by
  obtain ⟨turns, h_turns⟩ := streamed_structure (T := Sample.target 8) (c := Sample.conn 8 [])
    (q := Sample.command 5 24 (Sample.cdb10 0x28 0 2 2) []) (ramBackend_readsBlocks _ _ _ _)
    (Sample.reliable 8) rfl (by decide) (by decide +kernel) (by decide) (by decide) (by decide)
  refine ⟨turns, fun fuel h_fuel => ?_⟩
  obtain ⟨c', ps, h_serve, h_ps, -, h_data⟩ := h_turns fuel h_fuel
  exact ⟨c', ps, h_serve, h_ps, h_data (by decide)⟩

end IscsiTarget
