import IscsiTarget.DataIn.Emitted

/-!
# The length field of a streamed Data-In

DataSegmentLength has 24 bits, and the streaming loop makes segments of up to 256 MiB unless the
initiator has asked for smaller ones. The first segment is the longest, so it decides
(`lengthField_iff`).
-/

namespace IscsiTarget

variable {β : Type} {T : Target β} {fuel : ℕ} {c c' : Conn β} {q : Pdu}

/-- A later segment is not longer. -/
theorem toNat_currentN_le {p : StreamParams} {ses : Session} {offset : UInt32}
    (h : offset < p.offsetEnd) (h_next : offset + p.currentN ses offset < p.offsetEnd)
    (itt : UInt32) :
    (p.currentN (ses.getIncDatasn itt).2 (offset + p.currentN ses offset)).toNat ≤
      (p.currentN ses offset).toNat := by
  have h_left := @left_add_currentN p ses offset h
  rw [toNat_currentN h_next, cap_getIncDatasn, h_left, toNat_currentN h]
  exact min_le_min le_rfl (Nat.sub_le _ _)

/-- **The segments of the streaming loop**: the first is the longest, and the
field keeps the length modulo `2 ^ 24`. -/
theorem streamLoop_lengths (hB : T.backend.ReadsBlocks) {p : StreamParams} {fuel : ℕ} :
    ∀ {offset : UInt32} {lba : UInt64} {c c' : Conn β} {ifr : FailReason},
      offset < p.offsetEnd → streamLoop T p fuel .ok offset lba c = .ok (ifr, c') →
      ∃ ds : List DataInPdu, c.scsi.Sends c'.scsi (ds.map .dataIn) ∧
        (∀ d ∈ ds, d.dataSegmentLength = d.payload.length % 2 ^ 24 ∧
          d.payload.length ≤ (p.currentN c.ses offset).toNat) ∧
        ∀ d ∈ ds.head?, d.payload.length = (p.currentN c.ses offset).toNat := by
  -- induction on the turns; the cap does not change from one turn to the next, what is left gets
  -- less
  induction fuel with
  | zero => intro offset lba c c' ifr _ h; exact nomatch h
  | succ fuel ih =>
    intro offset lba c c' ifr h_more h
    have h_reads := sends_streamRead (T := T) c.scsi lba (p.currentN c.ses offset)
    have h_first {payload : Bytes} {s' : Scsi β}
        (h_read : streamRead T c.scsi lba (p.currentN c.ses offset) = (.ok payload, s')) :
        (p.dataIn T c.ses offset payload).1.dataSegmentLength =
            (p.dataIn T c.ses offset payload).1.payload.length % 2 ^ 24 ∧
          (p.dataIn T c.ses offset payload).1.payload.length =
            (p.currentN c.ses offset).toNat := by
      have h_len := length_streamRead hB h_read
      refine ⟨?_, h_len⟩
      change (p.currentN c.ses offset).toNat % 2 ^ 24 = payload.length % 2 ^ 24
      rw [h_len]
    cases streamTurn_of_loop h_more h with
    | readFailed h_read =>
      rw [h_read] at h_reads
      exact ⟨[], h_reads, by simp, by simp⟩
    | sendFailed h_read h_send =>
      obtain ⟨h_field, h_len⟩ := h_first h_read
      rw [h_read] at h_reads
      refine ⟨_, h_reads.after (sends_dataIn_event _ _ _), ?_, ?_⟩
      · rw [List.forall_mem_singleton]
        exact ⟨h_field, h_len.le⟩
      · simpa using h_len
    | @next payload s' _ _ h_read h_send h_rest =>
      obtain ⟨h_field, h_len⟩ := h_first h_read
      rw [h_read] at h_reads
      have h_sent := h_reads.after (sends_dataIn_event _ (p.dataIn T c.ses offset payload).1 true)
      by_cases h_last : offset + p.currentN c.ses offset = p.offsetEnd
      · obtain ⟨rfl, rfl⟩ :=
          streamLoop_of_not_lt (by rw [h_last]; exact UInt32.lt_irrefl _) h_rest
        refine ⟨_, h_sent, ?_, by simpa using h_len⟩
        rw [List.forall_mem_singleton]
        exact ⟨h_field, h_len.le⟩
      · have h_next := add_currentN_lt h_more h_last
        obtain ⟨ds, h_ds, h_all, -⟩ := ih h_next h_rest
        refine ⟨_ :: ds, h_sent.trans h_ds, ?_, by simpa using h_len⟩
        rw [List.forall_mem_cons]
        refine ⟨⟨h_field, h_len.le⟩, fun d hd => ⟨(h_all d hd).1, (h_all d hd).2.trans ?_⟩⟩
        exact toNat_currentN_le h_more h_next _

/-! ### The condition -/

variable (T) in
/-- The length of the first segment of a READ. -/
def firstSegment (c : Conn β) (q : Pdu) : ℕ :=
  min (min c.ses.maxSegLen.toNat (bufferN T (c.receive q).scsi.history))
    (min (T.nBytes q.bhs.getCdb.range.2 % 2 ^ 32) q.bhs.getExpDatLen.toNat)

theorem toNat_currentN_zero (h : (streamParamsOf T c q).offsetEnd ≠ 0) :
    ((streamParamsOf T c q).currentN c.ses 0).toNat = firstSegment T c q := by
  rw [toNat_currentN (UInt32.pos_iff_ne_zero.mpr h), left_streamParamsOf]
  rfl

/-- What a READ sends: the first Data-In is the longest. Its length field is
right when that length fits in 24 bits, and then all of them are. -/
theorem lengths_of_serve (hB : T.backend.ReadsBlocks) (hs : c.scsi.Streams T q.bhs.getCdb)
    {ds : List DataInPdu} (h : serve T fuel c q = .ok c')
    (h_ds : c.scsi.SendsDataIns c'.scsi ds) :
    (ds ≠ [] ↔ SendsData T c q) ∧
      (∀ d ∈ ds, d.dataSegmentLength = d.payload.length % 2 ^ 24 ∧
        d.payload.length ≤ firstSegment T c q) ∧
      ∀ d ∈ ds.head?, d.payload.length = firstSegment T c q := by
  obtain ⟨es, h_es, h_emits⟩ := serve_dataIns h
  obtain rfl := h_ds.unique h_es
  refine ⟨h_emits.ne_nil_iff, ?_⟩
  cases h_emits with
  | none => exact ⟨by simp, by simp⟩
  | inline _ h_stream => exact absurd hs h_stream
  | @streamed h_sends _ ifr c₁ _ h_ne h_loop h_ds' =>
    have h_end : (streamParamsOf T c q).offsetEnd ≠ 0 := by
      cases h_sends with
      | inline _ h_data => exact absurd h_data (not_returnsData_of_streams hs)
      | streamed _ _ h_length => exact h_length
    obtain ⟨fs, h_fs, h_all, h_head⟩ :=
      streamLoop_lengths hB (UInt32.pos_iff_ne_zero.mpr h_end) h_loop
    obtain rfl : ds = fs :=
      List.map_injective_iff.mpr (fun _ _ h => PduOut.dataIn.inj h) (h_ds'.unique h_fs)
    have h_first : ((streamParamsOf T c q).currentN (c.receive q).ses 0).toNat =
      firstSegment T c q := toNat_currentN_zero h_end
    rw [h_first] at h_all h_head
    exact ⟨h_all, h_head⟩

/-- A READ whose first segment is not empty ends, and if it sends data, it sends
that segment. Its length field keeps the lower 24 bits of the length. -/
theorem sends_firstSegment (hB : T.backend.ReadsBlocks) (hop : q.bhs.getOpcode = .scsiCmd)
    (hs : c.scsi.Streams T q.bhs.getCdb) (h_pos : 0 < firstSegment T c q)
    (h_sends : SendsData T c q) :
    ∃ c' ds, serve T (2 ^ 32) c q = .ok c' ∧ c.scsi.SendsDataIns c'.scsi ds ∧
      ∃ d ∈ ds, d.payload.length = firstSegment T c q ∧
        d.dataSegmentLength = firstSegment T c q % 2 ^ 24 := by
  have h_seg : 1 ≤ c.ses.maxSegLen := by
    rw [UInt32.le_iff_toNat_le]
    exact h_pos.trans_le ((min_le_left _ _).trans (min_le_left _ _))
  obtain ⟨c', h_serve⟩ := serve_streams_ends hop hs h_seg le_rfl
  obtain ⟨ds, h_ds, -⟩ := serve_dataIns h_serve
  obtain ⟨h_ne, h_all, h_head⟩ := lengths_of_serve hB hs h_serve h_ds
  cases ds with
  | nil => exact absurd rfl (h_ne.mpr h_sends)
  | cons d ds =>
    have h_len := h_head d rfl
    refine ⟨c', _, h_serve, h_ds, d, List.mem_cons_self, h_len, ?_⟩
    rw [(h_all d List.mem_cons_self).1, h_len]

/-- **No length field is cut short** exactly when the first segment is below
`2 ^ 24` bytes, or there is none. The field has three octets and the segment
length of the session four; the first segment is the longest one. -/
theorem lengthField_iff (hB : T.backend.ReadsBlocks) (hop : q.bhs.getOpcode = .scsiCmd)
    (hs : c.scsi.Streams T q.bhs.getCdb) :
    (∀ fuel c' ds, serve T fuel c q = .ok c' → c.scsi.SendsDataIns c'.scsi ds →
        ∀ d ∈ ds, d.dataSegmentLength = d.payload.length) ↔
      firstSegment T c q < 2 ^ 24 ∨ ¬ SendsData T c q := by
  constructor
  · intro h_exact
    by_contra h_not
    push Not at h_not
    obtain ⟨h_long, h_sends⟩ := h_not
    have h_pos : 0 < firstSegment T c q := (Nat.two_pow_pos 24).trans_le h_long
    obtain ⟨c', ds, h_serve, h_ds, d, hd, h_len, h_field⟩ :=
      sends_firstSegment hB hop hs h_pos h_sends
    have h_eq := h_exact _ c' ds h_serve h_ds d hd
    rw [h_len, h_field] at h_eq
    have h_lt := Nat.mod_lt (firstSegment T c q) (Nat.two_pow_pos 24)
    omega
  · intro h_fits fuel c' ds h_serve h_ds d hd
    obtain ⟨h_ne, h_all, -⟩ := lengths_of_serve hB hs h_serve h_ds
    rcases h_fits with h_short | h_none
    · rw [(h_all d hd).1]
      exact Nat.mod_eq_of_lt ((h_all d hd).2.trans_lt h_short)
    · exact absurd (h_ne.mp (List.ne_nil_of_mem hd)) h_none

/-- READ(12) of 2^20 blocks, with room for 2^24 bytes. -/
def Sample.readLong : Pdu :=
  { bhs := (header 0x01 0x80 5 0
      #v[0xa8, 0, 0, 0, 0, 0, 0, 0x10, 0, 0, 0, 0, 0, 0, 0, 0]).set 20 1 Header.lt20
    data_lt := Pdu.nil_lt }

/-- A short READ, whose field is right. -/
theorem lengthField_short :
    ∃ c' ds, serve (Sample.target 8) (2 ^ 32) (Sample.conn 8 [])
        (Sample.command 5 24 (Sample.cdb10 0x28 0 2 2) []) = .ok c' ∧
      (Sample.conn 8 []).scsi.SendsDataIns c'.scsi ds ∧
      ∀ d ∈ ds, d.dataSegmentLength = d.payload.length := by
  have h_streams : (Sample.conn 8 []).scsi.Streams (Sample.target 8)
      (Sample.command 5 24 (Sample.cdb10 0x28 0 2 2) []).bhs.getCdb := by decide +kernel
  obtain ⟨c', h_serve⟩ := serve_streams_ends (by decide) h_streams (by decide) le_rfl
  obtain ⟨ds, h_ds, -⟩ := serve_dataIns h_serve
  refine ⟨c', ds, h_serve, h_ds, ?_⟩
  exact (lengthField_iff (ramBackend_readsBlocks _ _ _ _) (by decide) h_streams).mpr
    (.inl (by decide)) _ c' ds h_serve h_ds

/-- A session that logs in without MaxRecvDataSegmentLength, and a READ of 2^24
bytes: they are sent in one Data-In, and its length field is zero. -/
theorem lengthField_fails :
    ∃ c : Conn Ram, c.scsi = (Sample.conn 0x100000 []).scsi ∧
      loginSetData (newSession (Sample.target 0x100000)) (ascii "InitiatorName=a") = .ok c.ses ∧
      ∃ c' ds, serve (Sample.target 0x100000) (2 ^ 32) c Sample.readLong = .ok c' ∧
        c.scsi.SendsDataIns c'.scsi ds ∧
        ∃ d ∈ ds, d.payload.length = 2 ^ 24 ∧ d.dataSegmentLength = 0 := by
  obtain ⟨ses, h_login, h_seg⟩ := Machine.exists_ok_of_any (P := fun ses => ses.maxSegLen = 2 ^ 28)
    (r := loginSetData (newSession (Sample.target 0x100000)) (ascii "InitiatorName=a"))
    (by decide +kernel)
  obtain ⟨c, h_scsi, rfl⟩ : ∃ c : Conn Ram, c.scsi = (Sample.conn 0x100000 []).scsi ∧
    c.ses = ses := ⟨{ scsi := _, ses := ses }, rfl, rfl⟩
  refine ⟨c, h_scsi, h_login, ?_⟩
  -- without the parameter the segment length is that of the target, which is 256 MB
  have h_first : firstSegment (Sample.target 0x100000) c Sample.readLong = 2 ^ 24 := by
    have h_bytes : (Sample.target 0x100000).nBytes Sample.readLong.bhs.getCdb.range.2 % 2 ^ 32 =
      2 ^ 24 := by decide +kernel
    have h_expected : Sample.readLong.bhs.getExpDatLen.toNat = 2 ^ 24 := by decide +kernel
    rw [firstSegment, h_seg, h_bytes, h_expected]
    rfl
  have h_stream : c.scsi.Streams (Sample.target 0x100000) Sample.readLong.bhs.getCdb := by
    rw [h_scsi]
    decide +kernel
  have h_free : (c.receive Sample.readLong).scsi.lockingStatus (Sample.target 0x100000) ≠
      .lockedOther := by
    change c.scsi.lockingStatus _ ≠ _
    rw [h_scsi]
    decide
  have h_disk : (c.receive Sample.readLong).scsi.disk.script = [] := by
    change c.scsi.disk.script = []
    rw [h_scsi]
    rfl
  obtain ⟨payload, s', h_read, -⟩ := (Sample.reliable 0x100000).streamRead h_disk h_free
    Sample.readLong.bhs.getCdb.range.1
    ((streamParamsOf (Sample.target 0x100000) c Sample.readLong).currentN c.ses 0)
  have h_sends : SendsData (Sample.target 0x100000) c Sample.readLong := by
    refine .streamed (by decide) h_stream (fun h_zero => ?_) h_read
    rcases (offsetEnd_streamParamsOf _ _).mp h_zero with h | h
    · exact absurd h (by decide +kernel)
    · exact absurd h (by decide +kernel)
  obtain ⟨c', ds, h_serve, h_ds, d, hd, h_len, h_field⟩ :=
    sends_firstSegment (T := Sample.target 0x100000) (ramBackend_readsBlocks _ _ _ _) (by decide)
      h_stream (by rw [h_first]; exact Nat.two_pow_pos 24) h_sends
  rw [h_first] at h_len h_field
  exact ⟨c', ds, h_serve, h_ds, d, hd, h_len, h_field⟩

end IscsiTarget
