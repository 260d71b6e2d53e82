import IscsiTarget.DataIn.Streamed

/-!
# The residual of a Data-In

The two encoders are to describe an answer of `has` bytes, where `expected` are expected, in the
same way (`ResidualAtEnd`). The streaming loop does. `get` first computes the residual of the
last Data-In, but then fills the field of every Data-In with the number of bytes that are left to
send, so only few answers come out right: `residual_iff`.
-/

namespace IscsiTarget

open Segments

variable {β : Type} {T : Target β}

variable (T) in
/-- The streaming path describes an answer of `has` bytes as it has to, on every
connection on which nothing fails. It is a statement about all states and all
READs of that length, so that it can be compared with the one about the inline
path. -/
def StreamsDescribe (expected has : ℕ) : Prop :=
  ∀ (good : β → Prop) (fuel : ℕ) (c c' : Conn β) (q : Pdu) (ds : List DataInPdu),
    T.Reliable good → good c.scsi.disk → c.scsi.lockingStatus T ≠ .lockedOther →
    1 ≤ c.ses.maxSegLen → q.bhs.getOpcode = .scsiCmd → c.scsi.Streams T q.bhs.getCdb →
    T.nBytes q.bhs.getCdb.range.2 < 2 ^ 32 → T.nBytes q.bhs.getCdb.range.2 = has →
    q.bhs.getExpDatLen.toNat = expected → serve T fuel c q = .ok c' →
    c.scsi.Sends c'.scsi (ds.map .dataIn) → ResidualAtEnd expected has ds

theorem streamsDescribe (hB : T.backend.ReadsBlocks) (expected has : ℕ) :
    StreamsDescribe T expected has := by
  rintro good fuel c c' q ds hT h_good h_free h_seg hop hs h_bytes rfl rfl h_serve h_ds
  rcases serve_streams_fills hB hT h_good hop hs h_free h_bytes h_seg h_serve with
    ⟨-, r, h_r, -⟩ | ⟨-, ds', h_ds', -, h_all⟩
  · -- a SCSI Response is no Data-In
    have h_eq := h_ds.unique h_r
    cases ds with
    | nil => exact nomatch h_eq
    | cons d ds => exact nomatch (List.cons.inj h_eq).1
  · obtain rfl : ds = ds' :=
      List.map_injective_iff.mpr (fun _ _ h => PduOut.dataIn.inj h) (h_ds.unique h_ds')
    have h_residual := StreamParams.Matches.residualAtEnd h_all
    rw [toNat_scsiHas_streamParamsOf h_bytes] at h_residual
    exact h_residual

/-- The answers that `get` describes as it has to. -/
def DescribedInline (blockSize expected has : ℕ) : Prop :=
  min has expected ≤ blockSize ∧ (expected = 2 * has ∨ has = 2 * expected)

/-- **The residual of an inline answer.** `DescribedInline` lists when what the
encoder puts into the last Data-In is what should be there. -/
theorem residualAtEnd_dataInGet_iff (replyTo : Header) {data : Bytes} (ses : Session)
    (h_data : data ≠ []) (h_expected : replyTo.getExpDatLen ≠ 0) :
    ResidualAtEnd replyTo.getExpDatLen.toNat data.length (dataInGet T replyTo data ses).1 ↔
      DescribedInline T.blockSize replyTo.getExpDatLen.toNat data.length := by
  obtain ⟨h_fills, -, -⟩ := dataInGet_fills (T := T) replyTo data ses
  have h_has : 0 < data.length := List.length_pos_iff.mpr h_data
  have h_pos : 0 < replyTo.getExpDatLen.toNat :=
    Nat.pos_of_ne_zero fun h => h_expected (UInt32.toNat_inj.mp h)
  have h_lt := replyTo.getExpDatLen.toNat_lt
  generalize (dataInGet T replyTo data ses).1 = ps at h_fills
  generalize replyTo.getExpDatLen.toNat = expected at *
  generalize data.length = has at *
  -- there is data, so there is a first Data-In, and its count is all that `get` sends
  rw [slots_cut_of_pos T.blockSize_pos (lt_min h_has h_pos)] at h_fills
  obtain ⟨d, ds, h_d, h_ds, rfl⟩ := List.forall₂_cons_right_iff.mp h_fills
  have h_count : d.residualCt.toNat = min has expected := by
    rw [h_d.residualCt, Nat.sub_zero]
    exact toNat_ofNat_32 ((min_le_right _ _).trans_lt h_lt)
  unfold DescribedInline
  by_cases h_one : min has expected ≤ T.blockSize
  · -- there is one Data-In, and nothing left behind it
    rw [min_eq_right h_one, Nat.sub_self, cut_zero] at h_ds
    obtain rfl := List.forall₂_nil_right_iff.mp h_ds
    have h_under : d.underflow = true ↔ has < expected := by
      rw [h_d.underflow]
      simp only [h_one, decide_true, Bool.true_and, decide_eq_true_eq]
    have h_over : d.overflow = true ↔ expected < has := by
      rw [h_d.overflow]
      simp only [h_one, decide_true, Bool.true_and, decide_eq_true_eq, gt_iff_lt]
    constructor
    · intro h
      have h_lengths := ((h [] d [] rfl).1 rfl).count
      rw [h_count] at h_lengths
      exact ⟨h_one, by omega⟩
    · rintro ⟨-, h⟩ pre p post h_split
      obtain ⟨rfl, rfl, rfl⟩ : pre = [] ∧ d = p ∧ post = [] := by
        cases pre with
        | nil =>
          obtain ⟨h_eq, h_nil⟩ := List.cons.inj h_split
          exact ⟨rfl, h_eq, h_nil.symm⟩
        | cons p' pre => simp at h_split
      refine ⟨fun _ => ⟨h_under, h_over, ?_⟩, fun h' => absurd rfl h'⟩
      rw [h_count]
      omega
  · -- the first Data-In is not the last, and has a count all the same
    refine iff_of_false (fun h => ?_) fun h => h_one h.1
    have h_more : ds ≠ [] := by
      rintro rfl
      rw [min_eq_left (by omega), cut_of_pos T.blockSize_pos (by omega)] at h_ds
      exact nomatch h_ds
    have h_zero := ((h [] d ds rfl).2 h_more).count
    rw [h_zero] at h_count
    change 0 = min has expected at h_count
    omega

/-- **Both encoders describe an answer as they have to** exactly when it fits
into one block, and is half or twice as long as expected. The streaming loop
always does; `get` overwrites its residual with the number of bytes left to
send, and that is the residual only if the two are the same number. -/
theorem residual_iff (hB : T.backend.ReadsBlocks) (replyTo : Header) {data : Bytes}
    (ses : Session) (h_data : data ≠ []) (h_expected : replyTo.getExpDatLen ≠ 0) :
    ResidualAtEnd replyTo.getExpDatLen.toNat data.length (dataInGet T replyTo data ses).1 ∧
        StreamsDescribe T replyTo.getExpDatLen.toNat data.length ↔
      DescribedInline T.blockSize replyTo.getExpDatLen.toNat data.length := by
  rw [and_iff_left (streamsDescribe hB _ _)]
  exact residualAtEnd_dataInGet_iff replyTo ses h_data h_expected

/-- Eight bytes where sixteen are expected. -/
theorem residual_half :
    ResidualAtEnd 16 8 (dataInGet (Sample.target 8)
      (Sample.command 5 16 (Sample.cdb10 0x25 0 0 0) []).bhs (zeros 8) (Sample.conn 8 []).ses).1 :=
  ((residual_iff (T := Sample.target 8) (ramBackend_readsBlocks _ _ _ _) _ _ (by decide)
    (by decide)).mpr ⟨by decide, .inl (by decide)⟩).1

/-- The eight bytes of READ CAPACITY, exactly as expected: the residual count is
8. -/
theorem residual_fails :
    (∃ d, (dataInGet (Sample.target 8) Sample.readCapacity.bhs (zeros 8)
        (Sample.conn 8 []).ses).1 = [d] ∧ d.residualCt = 8) ∧
      ¬ ResidualAtEnd 8 8 (dataInGet (Sample.target 8) Sample.readCapacity.bhs (zeros 8)
        (Sample.conn 8 []).ses).1 := by
  obtain ⟨d, h_one, h_count⟩ : ∃ d, (dataInGet (Sample.target 8) Sample.readCapacity.bhs (zeros 8)
      (Sample.conn 8 []).ses).1 = [d] ∧ d.residualCt = 8 :=
    ⟨_, rfl, by decide⟩
  refine ⟨⟨d, h_one, h_count⟩, fun h => ?_⟩
  have h_zero := ((h [] d [] h_one).1 rfl).count
  rw [h_count] at h_zero
  exact absurd h_zero (by decide)

end IscsiTarget
