import IscsiTarget.Answers.Status
import IscsiTarget.Lib.Segments

/-!
# How data is cut into Data-Ins

There are two encoders: `get` of a Data-In object cuts a buffer into blocks, the streaming loop
cuts a range of the medium into segments. `DataInPdu.Fills` is what they have in common: a
Data-In for the place of a segment among the others. `Segmented` says the same of a list of
Data-Ins without the places, and `Segmented.of_fills` gets there.

`inline_segmented` is for the first encoder.
-/

namespace IscsiTarget

open Segments

/-! ### Data-Ins and their places -/

/-- The Data-In for the place `s`. Its length field has 24 bits only, and the F
and the S bit go together. -/
structure DataInPdu.Fills (p : DataInPdu) (s : Slot) : Prop where
  offset : p.bufferoff.toNat = s.offset
  length : p.payload.length = s.length
  field : p.dataSegmentLength = s.length % 2 ^ 24
  final : p.final = s.last
  statusBit : p.statusBit = s.last

/-- The numbers count up, from `n` on. -/
def CountsFrom : UInt32 → List UInt32 → Prop
  | _, [] => True
  | n, m :: ms => m = n ∧ CountsFrom (n + 1) ms

instance : ∀ (n : UInt32) (ms : List UInt32), Decidable (CountsFrom n ms)
  | _, [] => .isTrue trivial
  | n, m :: ms =>
    have : Decidable (CountsFrom (n + 1) ms) := instDecidableCountsFrom (n + 1) ms
    inferInstanceAs (Decidable (m = n ∧ CountsFrom (n + 1) ms))

/-- The Data-Ins of `total` bytes, `cap` being the most one of them can carry.
They come in order, without a gap, and the last one ends the answer. -/
structure Segmented (cap total : ℕ) (ps : List DataInPdu) : Prop where
  length : ∀ p ∈ ps, 1 ≤ p.payload.length ∧ p.payload.length ≤ cap
  total : (ps.map fun p => p.payload.length).sum = total
  /-- The buffer offset is the number of bytes in front. -/
  offset : ∀ pre p post, ps = pre ++ p :: post →
    p.bufferoff.toNat = (pre.map fun p => p.payload.length).sum
  dataSN : ∀ pre p p' post, ps = pre ++ p :: p' :: post → p'.dataSN = p.dataSN + 1
  /-- F and S are set on the last Data-In, and on no other. -/
  ends : ∀ pre p post, ps = pre ++ p :: post →
    (p.final = true ↔ post = []) ∧ (p.statusBit = true ↔ post = [])

theorem CountsFrom.next {n : UInt32} {pre post : List UInt32} {m m' : UInt32}
    (h : CountsFrom n (pre ++ m :: m' :: post)) : m' = m + 1 := by
  induction pre generalizing n with
  | nil =>
    obtain ⟨rfl, rfl, -⟩ := h
    rfl
  | cons k pre ih => exact ih h.2

/-- Splitting a list, and the list it goes with. -/
theorem forall₂_split {α β : Type*} {R : α → β → Prop} {pre post : List α} {a : α} {bs : List β}
    (h : List.Forall₂ R (pre ++ a :: post) bs) :
    ∃ pre' b post', bs = pre' ++ b :: post' ∧ List.Forall₂ R pre pre' ∧ R a b ∧
      List.Forall₂ R post post' := by
  induction pre generalizing bs with
  | nil =>
    obtain ⟨b, post', h_a, h_post, rfl⟩ := List.forall₂_cons_left_iff.mp h
    exact ⟨[], b, post', rfl, .nil, h_a, h_post⟩
  | cons a' pre ih =>
    obtain ⟨b', bs', h_a', h_rest, rfl⟩ := List.forall₂_cons_left_iff.mp h
    obtain ⟨pre', b, post', rfl, h_pre, h_a, h_post⟩ := ih h_rest
    exact ⟨b' :: pre', b, post', rfl, .cons h_a' h_pre, h_a, h_post⟩

/-- Data-Ins are as long as their places. -/
theorem map_length_of_fills {ps : List DataInPdu} {ss : List Slot}
    (h : List.Forall₂ DataInPdu.Fills ps ss) :
    (ps.map fun p => p.payload.length) = ss.map Slot.length := by
  induction h with
  | nil => rfl
  | cons h_fills _ ih => rw [List.map_cons, List.map_cons, h_fills.length, ih]

/-- **Data-Ins in their places**, with DataSNs that count up. That the places
are in order, without a gap, is a fact about `slots` and `cut`. -/
theorem Segmented.of_fills {cap total : ℕ} (hcap : 0 < cap) {ps : List DataInPdu} {n : UInt32}
    (h : List.Forall₂ DataInPdu.Fills ps (slots 0 (cut cap total)))
    (h_counts : CountsFrom n (ps.map DataInPdu.dataSN)) : Segmented cap total ps := by
  -- each Data-In is in the place of a segment, so everything is read off the places
  have h_lengths : (ps.map fun p => p.payload.length) = cut cap total := by
    rw [map_length_of_fills h, map_length_slots]
  refine ⟨fun p hp => ?_, by rw [h_lengths, sum_cut], ?_, ?_, ?_⟩
  · have h_mem : p.payload.length ∈ cut cap total := by
      rw [← h_lengths]
      exact List.mem_map_of_mem (f := fun p : DataInPdu => p.payload.length) hp
    exact ⟨pos_of_mem_cut hcap h_mem, le_of_mem_cut hcap h_mem⟩
  · rintro pre p post rfl
    obtain ⟨pre', s, post', h_slots, h_pre, h_fills, -⟩ := forall₂_split h
    rw [h_fills.offset, (slots_split h_slots).1, Nat.zero_add, map_length_of_fills h_pre]
  · rintro pre p p' post rfl
    rw [List.map_append, List.map_cons, List.map_cons] at h_counts
    exact h_counts.next
  · rintro pre p post rfl
    obtain ⟨pre', s, post', h_slots, -, h_fills, h_post⟩ := forall₂_split h
    have h_nil : post' = [] ↔ post = [] := by
      rw [← List.length_eq_zero_iff, ← List.length_eq_zero_iff, h_post.length_eq]
    rw [h_fills.final, h_fills.statusBit, (slots_split h_slots).2, h_nil]
    exact ⟨Iff.rfl, Iff.rfl⟩

/-! ### DataSNs -/

/-- The DataSN after the one that has been handed out. -/
theorem getIncDatasn_next (ses : Session) (itt : UInt32) :
    ((ses.getIncDatasn itt).2.getIncDatasn itt).1 = (ses.getIncDatasn itt).1 + 1 := by
  unfold Session.getIncDatasn
  split <;> simp

/-! ### Data in a buffer -/

variable {β : Type} {T : Target β}

/-- The Data-In of `get` for the place `s`. Whatever the place, its residual
count is the number of bytes that are left to send. -/
structure DataInPdu.FillsBlock (has expected : ℕ) (p : DataInPdu) (s : Slot) : Prop
    extends p.Fills s where
  underflow : p.underflow = (s.last && decide (has < expected))
  overflow : p.overflow = (s.last && decide (has > expected))
  residualCt : p.residualCt = UInt32.ofNat (min has expected - s.offset)

/-- **The loop of `get`**: a Data-In for each block. By induction on the turns
that are left; the last Data-In is as long as what remains. -/
theorem dataInGetLoop_fills (replyTo : Header) {data : Bytes} {use nToDo : ℕ}
    (h_use : use = min data.length replyTo.getExpDatLen.toNat)
    (h_nToDo : nToDo = (use + T.blockSize - 1) / T.blockSize) :
    ∀ (turns count : ℕ) (ses : Session), count + turns = nToDo →
      let ps := (dataInGetLoop T replyTo data use nToDo turns count ses).1
      List.Forall₂ (DataInPdu.FillsBlock data.length replyTo.getExpDatLen.toNat) ps
        (slots (count * T.blockSize) (cut T.blockSize (use - count * T.blockSize))) ∧
      CountsFrom (ses.getIncDatasn replyTo.getItasktag).1 (ps.map DataInPdu.dataSN) ∧
      (ps.flatMap fun p => p.payload) = (data.take use).drop (count * T.blockSize) := by
  have h_bs := T.blockSize_pos
  have h_data : use ≤ data.length := by
    rw [h_use]
    exact min_le_left _ _
  have h_lt : use < 2 ^ 32 := by
    rw [h_use]
    exact (min_le_right _ _).trans_lt replyTo.getExpDatLen.toNat_lt
  intro turns
  induction turns with
  | zero =>
    intro count ses h_count
    -- all blocks have been sent
    have h_end : use ≤ count * T.blockSize := by
      have h_div := Nat.lt_div_mul_add (a := use + T.blockSize - 1) h_bs
      rw [← h_nToDo, ← h_count, Nat.add_zero] at h_div
      omega
    have h_zero : use - count * T.blockSize = 0 := by omega
    rw [h_zero, cut_zero]
    refine ⟨.nil, trivial, ?_⟩
    rw [List.drop_eq_nil_of_le (by rw [List.length_take]; omega)]
    rfl
  | succ turns ih =>
    intro count ses h_count
    have h_more : count * T.blockSize < use := by
      have h_le : (count + 1) * T.blockSize ≤ use + T.blockSize - 1 := by
        refine (Nat.mul_le_mul_right _ ?_).trans (Nat.div_mul_le_self _ _)
        rw [← h_nToDo]
        omega
      rw [Nat.add_mul, Nat.one_mul] at h_le
      omega
    have h_next : (count + 1) * T.blockSize = count * T.blockSize + T.blockSize := by
      rw [Nat.add_mul, Nat.one_mul]
    -- the last block is the one behind which there is nothing
    have h_last : (count + 1 == nToDo) = decide (use - count * T.blockSize ≤ T.blockSize) := by
      rw [Bool.eq_iff_iff, beq_iff_eq, decide_eq_true_iff]
      constructor
      · intro h
        have h_div := Nat.lt_div_mul_add (a := use + T.blockSize - 1) h_bs
        rw [← h_nToDo, ← h, h_next] at h_div
        omega
      · intro h
        have h_lt : nToDo < count + 1 + 1 := by
          rw [h_nToDo, Nat.div_lt_iff_lt_mul h_bs, Nat.add_mul, h_next, Nat.one_mul]
          omega
        omega
    obtain ⟨ih_fills, ih_counts, ih_data⟩ :=
      ih (count + 1) (ses.getIncDatasn replyTo.getItasktag).2 (by omega)
    rw [dataInGetLoop, if_pos h_more]
    dsimp only
    refine ⟨?_, ⟨rfl, ?_⟩, ?_⟩
    · rw [slots_cut_of_pos h_bs (by omega)]
      refine .cons ⟨⟨?_, ?_, ?_, h_last, h_last⟩, ?_, ?_, ?_⟩ ?_
      · exact toNat_ofNat_32 (h_more.trans h_lt)
      · dsimp only
        rw [List.length_take, List.length_drop]
        omega
      · dsimp only
        rw [min_comm]
      · dsimp only
        rw [h_last]
      · dsimp only
        rw [h_last]
      · dsimp only
        rw [h_use]
      · by_cases h : use - count * T.blockSize ≤ T.blockSize
        · have h_zero : use - (count + 1) * T.blockSize = 0 := by omega
          rw [h_zero, cut_zero] at ih_fills
          rw [min_eq_right h, Nat.sub_self, cut_zero]
          exact ih_fills
        · rw [min_eq_left (by omega), ← h_next,
            show use - count * T.blockSize - T.blockSize = use - (count + 1) * T.blockSize by omega]
          exact ih_fills
    · rw [← getIncDatasn_next]
      exact ih_counts
    · rw [List.flatMap_cons, ih_data, h_next, List.drop_take, List.drop_take, ← List.drop_drop]
      by_cases h : use - count * T.blockSize ≤ T.blockSize
      · rw [min_eq_left h, show use - (count * T.blockSize + T.blockSize) = 0 by omega,
          List.take_zero, List.append_nil]
      · rw [min_eq_right (by omega), ← Nat.sub_sub]
        have h_split := List.take_add (l := data.drop (count * T.blockSize)) (i := T.blockSize)
          (j := use - count * T.blockSize - T.blockSize)
        rw [show T.blockSize + (use - count * T.blockSize - T.blockSize) =
          use - count * T.blockSize by omega] at h_split
        exact h_split.symm

/-- `get` fills the places of the blocks. -/
theorem dataInGet_fills (replyTo : Header) (data : Bytes) (ses : Session) :
    let ps := (dataInGet T replyTo data ses).1
    List.Forall₂ (DataInPdu.FillsBlock data.length replyTo.getExpDatLen.toNat) ps
      (slots 0 (cut T.blockSize (min data.length replyTo.getExpDatLen.toNat))) ∧
    CountsFrom (ses.getIncDatasn replyTo.getItasktag).1 (ps.map DataInPdu.dataSN) ∧
    (ps.flatMap fun p => p.payload) = data.take (min data.length replyTo.getExpDatLen.toNat) := by
  have h := @dataInGetLoop_fills _ T replyTo data _ _ rfl rfl
    ((min data.length replyTo.getExpDatLen.toNat + T.blockSize - 1) / T.blockSize) 0 ses
    (Nat.zero_add _)
  rw [Nat.zero_mul, Nat.sub_zero, List.drop_zero] at h
  exact h

/-- **Inline segmentation.** Whatever the data, the expected length and the
block size are, the payloads of the Data-Ins are the data in order, cut to what
is expected, and the Data-Ins are segmented as they have to be. Their length
fields name their payloads when the length of a block fits in 24 bits. -/
theorem inline_segmented (T : Target β) (replyTo : Header) (data : Bytes) (ses : Session) :
    let ps := (dataInGet T replyTo data ses).1
    (ps.flatMap fun p => p.payload) = data.take (min data.length replyTo.getExpDatLen.toNat) ∧
    Segmented T.blockSize (min data.length replyTo.getExpDatLen.toNat) ps ∧
    (T.blockSize < 2 ^ 24 → ∀ p ∈ ps, p.dataSegmentLength = p.payload.length) := by
  obtain ⟨h_fills, h_counts, h_data⟩ := dataInGet_fills (T := T) replyTo data ses
  have h_segmented := Segmented.of_fills T.blockSize_pos
    (h_fills.imp fun _ _ h => h.toFills) h_counts
  refine ⟨h_data, h_segmented, fun h_bs p hp => ?_⟩
  obtain ⟨pre, post, h_split⟩ := List.append_of_mem hp
  rw [h_split] at h_fills
  obtain ⟨pre', s, post', -, -, h_p, -⟩ := forall₂_split h_fills
  rw [h_p.field, ← h_p.length]
  exact Nat.mod_eq_of_lt ((h_segmented.length p hp).2.trans_lt h_bs)

/-- Forty bytes in blocks of 16, of which 36 are expected. -/
theorem inline_segmented_forty :
    (dataInGet (Sample.target 8) (Sample.command 5 36 (Sample.cdb10 0x12 0 0 0) []).bhs
        (zeros 40) (Sample.conn 8 []).ses).1.length = 3 ∧
      ∀ p ∈ (dataInGet (Sample.target 8) (Sample.command 5 36 (Sample.cdb10 0x12 0 0 0) []).bhs
        (zeros 40) (Sample.conn 8 []).ses).1, p.dataSegmentLength = p.payload.length :=
  ⟨by decide, (inline_segmented (Sample.target 8) _ _ _).2.2 (by decide)⟩

end IscsiTarget
