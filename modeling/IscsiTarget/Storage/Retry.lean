import IscsiTarget.Model.SdTransfer
import IscsiTarget.Storage.Contract

/-!
# Transfers that are tried again

A transfer that falls short leaves the file behind what it moved, and the next one goes on
from there with the whole buffer again. So what reaches the card is the pieces of the
attempts that fell short, one behind the other, and the buffer behind all of them
(`sdWrite_contents`); what a `read` finds is as far behind the range as the pieces are long
(`sdRead_buffer`). The range has been transferred just when this shift does not show.
-/

namespace IscsiTarget

variable {turns : List ℕ} {c d : SdCalls} {f : SdFile} {blockNr : UInt64} {nBlocks : UInt32}
  {data buffer : Bytes}

/-! ### The loop -/

section Loop

variable {σ : Type*} {attempt : ℕ → σ → Bool × σ}

theorem retries_cons_of_true {i : ℕ} {is : List ℕ} {s : σ} (h : (attempt i s).1 = true) :
    retries attempt (i :: is) s = (true, (attempt i s).2) := by
  rw [retries]
  split
  · next s' h_eq => rw [h_eq]
  · next s' h_eq =>
    rw [h_eq] at h
    cases h

theorem retries_cons_of_false {i : ℕ} {is : List ℕ} {s : σ} (h : (attempt i s).1 = false) :
    retries attempt (i :: is) s = retries attempt is (attempt i s).2 := by
  rw [retries]
  split
  · next s' h_eq =>
    rw [h_eq] at h
    cases h
  · next s' h_eq => rw [h_eq]

/-- It works when one of the attempts does, if this does not depend on the ones
before. -/
theorem retries_fst {works : ℕ → Prop} (h : ∀ i s, (attempt i s).1 = true ↔ works i)
    (is : List ℕ) (s : σ) : (retries attempt is s).1 = true ↔ ∃ i ∈ is, works i := by
  induction is generalizing s with
  | nil => simp [retries]
  | cons i is ih =>
    by_cases h_works : (attempt i s).1 = true
    · rw [retries_cons_of_true h_works]
      exact ⟨fun _ => ⟨i, List.mem_cons_self, (h i s).mp h_works⟩, fun _ => rfl⟩
    · have h_not : ¬ works i := fun h_i => h_works ((h i s).mpr h_i)
      rw [retries_cons_of_false (Bool.eq_false_iff.mpr h_works), ih]
      simp [h_not]

end Loop

namespace SdCalls

/-- The file can be put at the offset, and a transfer moves everything. -/
def Completes (c : SdCalls) (turns : List ℕ) (nBytes : ℕ) : Prop :=
  c.seeks = true ∧ ∃ i ∈ turns, nBytes ≤ c.moves i

/-- How much the transfers move that fall short, until one does not. -/
def pieces (c : SdCalls) (turns : List ℕ) (nBytes : ℕ) : List ℕ :=
  (turns.map c.moves).takeWhile (· < nBytes)

theorem pieces_cons_of_le {i n : ℕ} (h : n ≤ c.moves i) : c.pieces (i :: turns) n = [] := by
  rw [pieces, List.map_cons, List.takeWhile_cons_of_neg (by simpa using h)]

theorem pieces_cons_of_lt {i n : ℕ} (h : c.moves i < n) :
    c.pieces (i :: turns) n = c.moves i :: c.pieces turns n := by
  rw [pieces, List.map_cons, List.takeWhile_cons_of_pos (by simpa using h), pieces]

end SdCalls

/-! ### What one transfer does -/

namespace SdFile

theorem write_fst {n k : ℕ} : (f.write data n k).1 = true ↔ n ≤ k := by
  simp [write]

theorem write_of_lt {n k : ℕ} (h : k < n) :
    f.write data n k =
      (false, { contents := f.contents.store f.pos (data.take k), pos := f.pos + k }) := by
  simp only [write, Nat.min_eq_left h.le, Prod.mk.injEq, and_true]
  exact beq_false_of_ne h.ne

theorem write_of_le {n k : ℕ} (h : n ≤ k) :
    f.write data n k =
      (true, { contents := f.contents.store f.pos (data.take n), pos := f.pos + n }) := by
  simp [write, h]

theorem read_fst {n k : ℕ} : (f.read data n k).1 = true ↔ n ≤ k := by
  simp [read]

theorem read_of_lt {n k : ℕ} (h : k < n) :
    f.read data n k =
      (false, f.contents.slice f.pos k ++ data.drop k, { f with pos := f.pos + k }) := by
  simp only [read, Nat.min_eq_left h.le, Prod.mk.injEq, and_true]
  exact beq_false_of_ne h.ne

theorem read_of_le {n k : ℕ} (h : n ≤ k) :
    f.read data n k =
      (true, f.contents.slice f.pos n ++ data.drop n, { f with pos := f.pos + n }) := by
  simp [read, h]

end SdFile

/-! ### What the loop does -/

/-- A `write` that works has stored the pieces, and the buffer behind them. Each
turn begins where the last one stopped, but with the whole buffer. -/
theorem retries_write {n : ℕ} (h_data : data.length = n) (f : SdFile)
    (h : (retries (fun i f => f.write data n (c.moves i)) turns f).1 = true) :
    (retries (fun i f => f.write data n (c.moves i)) turns f).2.contents =
      f.contents.store f.pos ((c.pieces turns n).flatMap (fun k => data.take k) ++ data) := by
  -- on the turns that are left: each one moves a piece, and the file position behind it
  induction turns generalizing f with
  | nil => cases h
  | cons i is ih =>
    rcases Nat.lt_or_ge (c.moves i) n with h_lt | h_le
    · -- a piece, and the other turns from behind it
      have h_turn : f.write data n (c.moves i) = _ := SdFile.write_of_lt h_lt
      have h_len : (data.take (c.moves i)).length = c.moves i :=
        List.length_take_of_le (by rw [h_data]; exact h_lt.le)
      rw [retries_cons_of_false (by rw [h_turn])] at h ⊢
      rw [ih _ h, h_turn, SdCalls.pieces_cons_of_lt h_lt, List.flatMap_cons, List.append_assoc,
        Medium.store_append _ _ (data.take (c.moves i)), h_len]
    · have h_turn : f.write data n (c.moves i) = _ := SdFile.write_of_le h_le
      rw [retries_cons_of_true (by rw [h_turn]), h_turn, SdCalls.pieces_cons_of_le h_le,
        List.flatMap_nil, List.nil_append, List.take_of_length_le h_data.le]

/-- A `read` that works has read from as far behind as the pieces are long. The
buffer is filled from its beginning in each turn. -/
theorem retries_read {n : ℕ} (s : Bytes × SdFile) (h_buffer : s.1.length = n)
    (h : (retries (fun i s => s.2.read s.1 n (c.moves i)) turns s).1 = true) :
    (retries (fun i s => s.2.read s.1 n (c.moves i)) turns s).2.1 =
      s.2.contents.slice (s.2.pos + (c.pieces turns n).sum) n := by
  induction turns generalizing s with
  | nil => cases h
  | cons i is ih =>
    rcases Nat.lt_or_ge (c.moves i) n with h_lt | h_le
    · have h_turn : s.2.read s.1 n (c.moves i) = _ := SdFile.read_of_lt h_lt
      rw [retries_cons_of_false (by rw [h_turn])] at h ⊢
      -- the buffer keeps its length
      have h_len : (s.2.read s.1 n (c.moves i)).2.1.length = n := by
        rw [h_turn, List.length_append, Medium.length_slice, List.length_drop, h_buffer]
        exact Nat.add_sub_of_le h_lt.le
      rw [ih _ h_len h, h_turn, SdCalls.pieces_cons_of_lt h_lt, List.sum_cons, Nat.add_assoc]
    · have h_turn : s.2.read s.1 n (c.moves i) = _ := SdFile.read_of_le h_le
      rw [retries_cons_of_true (by rw [h_turn]), h_turn, SdCalls.pieces_cons_of_le h_le,
        List.sum_nil, Nat.add_zero, List.drop_of_length_le h_buffer.le, List.append_nil]

/-! ### The functions -/

theorem sdWrite_fst : (sdWrite turns c blockNr nBlocks data f).1 = true ↔
    c.Completes turns (sdBytes nBlocks) := by
  unfold sdWrite SdCalls.Completes
  split
  · next h_seeks =>
    have h_turn : ∀ i (f : SdFile), (f.write data (sdBytes nBlocks) (c.moves i)).1 = true ↔
        sdBytes nBlocks ≤ c.moves i := fun _ _ => SdFile.write_fst
    rw [retries_fst h_turn]
    exact (and_iff_right h_seeks).symm
  · next h_seeks => simp [h_seeks]

theorem sdRead_fst : (sdRead turns c blockNr nBlocks buffer f).1 = true ↔
    c.Completes turns (sdBytes nBlocks) := by
  unfold sdRead SdCalls.Completes
  split
  · next h_seeks =>
    have h_turn : ∀ i (s : Bytes × SdFile), (s.2.read s.1 (sdBytes nBlocks) (c.moves i)).1 = true ↔
        sdBytes nBlocks ≤ c.moves i := fun _ _ => SdFile.read_fst
    rw [retries_fst h_turn]
    exact (and_iff_right h_seeks).symm
  · next h_seeks => simp [h_seeks]

theorem sdWrite_contents (h_data : data.length = sdBytes nBlocks)
    (h : (sdWrite turns c blockNr nBlocks data f).1 = true) :
    (sdWrite turns c blockNr nBlocks data f).2.contents =
      f.contents.store (sdOffset blockNr)
        ((c.pieces turns (sdBytes nBlocks)).flatMap (fun k => data.take k) ++ data) := by
  have h_seeks : c.seeks = true := (sdWrite_fst.mp h).1
  unfold sdWrite at h ⊢
  rw [if_pos h_seeks] at h ⊢
  exact retries_write h_data _ h

theorem sdRead_buffer (h_buffer : buffer.length = sdBytes nBlocks)
    (h : (sdRead turns c blockNr nBlocks buffer f).1 = true) :
    (sdRead turns c blockNr nBlocks buffer f).2.1 =
      f.contents.slice (sdOffset blockNr + (c.pieces turns (sdBytes nBlocks)).sum)
        (sdBytes nBlocks) := by
  have h_seeks : c.seeks = true := (sdRead_fst.mp h).1
  unfold sdRead at h ⊢
  rw [if_pos h_seeks] at h ⊢
  exact retries_read _ h_buffer h

/-! ### The range -/

/-- The offset of the first block of a range that the card has. -/
theorem sdOffset_eq (h_range : (blockNr.toNat + nBlocks.toNat) * sdBlockSize < 2 ^ 64) :
    sdOffset blockNr = blockNr.toNat * sdBlockSize := by
  have h_first := toNat_offset h_range (by decide) (Nat.zero_le _)
  have h_zero : blockNr + UInt64.ofNat 0 = blockNr := by simp
  rw [h_zero, Nat.zero_mul, Nat.add_zero] at h_first
  exact h_first

theorem sdBytes_eq (h : nBlocks.toNat * sdBlockSize < 2 ^ 32) :
    sdBytes nBlocks = nBlocks.toNat * sdBlockSize := Nat.mod_eq_of_lt h

/-- A `write` that tells that it worked: the range holds the buffer, and no
other byte of the file has changed. -/
def WritesRange (write : UInt64 → UInt32 → Bytes → SdFile → Bool × SdFile) (blockNr : UInt64)
    (nBlocks : UInt32) (data : Bytes) (f : SdFile) : Prop :=
  (write blockNr nBlocks data f).1 = true →
    (write blockNr nBlocks data f).2.contents =
      f.contents.store (blockNr.toNat * sdBlockSize) data

/-- A `read` that tells that it worked: the buffer holds the range. What a
failed one leaves in the buffer is not asked. -/
def ReadsRange (read : UInt64 → UInt32 → Bytes → SdFile → Bool × Bytes × SdFile)
    (blockNr : UInt64) (nBlocks : UInt32) (buffer : Bytes) (f : SdFile) : Prop :=
  (read blockNr nBlocks buffer f).1 = true →
    (read blockNr nBlocks buffer f).2.1 =
      f.contents.slice (blockNr.toNat * sdBlockSize) (nBlocks.toNat * sdBlockSize)

/-- What a `write` has stored before the transfer that moves everything. -/
def SdCalls.stray (c : SdCalls) (turns : List ℕ) (data : Bytes) : Bytes :=
  (c.pieces turns data.length).flatMap fun k => data.take k

/-- The shift of a `write` does not show: with the stray bytes before it, the
buffer ends in what is behind the range anyway. -/
def WriteShiftHidden (turns : List ℕ) (c : SdCalls) (data : Bytes) (m : Medium UInt8)
    (off : ℕ) : Prop :=
  c.stray turns data ++ data = data ++ m.slice (off + data.length) (c.stray turns data).length

/-- The shift of a `read` does not show: the file repeats itself. -/
def ReadShiftHidden (turns : List ℕ) (c : SdCalls) (n : ℕ) (m : Medium UInt8) (off : ℕ) : Prop :=
  m.slice (off + (c.pieces turns n).sum) n = m.slice off n

theorem sdWrite_writesRange_iff
    (h_range : (blockNr.toNat + nBlocks.toNat) * sdBlockSize < 2 ^ 64)
    (h_size : nBlocks.toNat * sdBlockSize < 2 ^ 32)
    (h_data : data.length = nBlocks.toNat * sdBlockSize) :
    WritesRange (sdWrite turns c) blockNr nBlocks data f ↔
      (c.Completes turns data.length →
        WriteShiftHidden turns c data f.contents (blockNr.toNat * sdBlockSize)) := by
  have h_bytes : sdBytes nBlocks = data.length := (sdBytes_eq h_size).trans h_data.symm
  unfold WritesRange
  rw [sdWrite_fst, h_bytes]
  refine imp_congr_right fun h_completes => ?_
  rw [sdWrite_contents h_bytes.symm (sdWrite_fst.mpr (by rwa [h_bytes])), sdOffset_eq h_range,
    h_bytes]
  -- both sides as one list at the same place
  rw [← Medium.store_append_behind f.contents _ (c.stray turns data).length data,
    Medium.store_inj]
  · rfl
  · rw [List.length_append, List.length_append, Medium.length_slice, Nat.add_comm]
    rfl

theorem sdRead_readsRange_iff
    (h_range : (blockNr.toNat + nBlocks.toNat) * sdBlockSize < 2 ^ 64)
    (h_size : nBlocks.toNat * sdBlockSize < 2 ^ 32)
    (h_buffer : buffer.length = nBlocks.toNat * sdBlockSize) :
    ReadsRange (sdRead turns c) blockNr nBlocks buffer f ↔
      (c.Completes turns buffer.length →
        ReadShiftHidden turns c buffer.length f.contents (blockNr.toNat * sdBlockSize)) := by
  have h_bytes : sdBytes nBlocks = buffer.length := (sdBytes_eq h_size).trans h_buffer.symm
  unfold ReadsRange
  rw [sdRead_fst, h_bytes]
  refine imp_congr_right fun h_completes => ?_
  rw [sdRead_buffer h_bytes.symm (sdRead_fst.mpr (by rwa [h_bytes])), sdOffset_eq h_range,
    h_bytes, ← h_buffer]
  exact Iff.rfl

/-- No byte was moved in vain. -/
theorem shiftHidden_of_sum_eq_zero {m : Medium UInt8} {off : ℕ}
    (h : (c.pieces turns data.length).sum = 0) :
    WriteShiftHidden turns c data m off ∧ ReadShiftHidden turns c data.length m off := by
  have h_stray : c.stray turns data = [] := by
    refine List.flatMap_eq_nil_iff.mpr fun k hk => ?_
    have h_le := List.le_sum_of_mem hk
    rw [h] at h_le
    rw [Nat.le_zero.mp h_le, List.take_zero]
  constructor
  · rw [WriteShiftHidden, h_stray, List.nil_append, List.length_nil, Medium.slice_zero,
      List.append_nil]
  · rw [ReadShiftHidden, h, Nat.add_zero]

/-- **Transfers that are tried again.** On the RP2040W a `write` that tells that
it worked has changed the range and nothing else, and a `read` that does has
returned the range, exactly when the bytes that the attempts before moved in
vain do not show. Positions in a file have 64 bits and sizes of buffers 32. -/
theorem retried_iff (c d : SdCalls) (f : SdFile) (blockNr : UInt64) (nBlocks : UInt32)
    (data buffer : Bytes) (h_range : (blockNr.toNat + nBlocks.toNat) * sdBlockSize < 2 ^ 64)
    (h_size : nBlocks.toNat * sdBlockSize < 2 ^ 32)
    (h_data : data.length = nBlocks.toNat * sdBlockSize)
    (h_buffer : buffer.length = nBlocks.toNat * sdBlockSize) :
    (WritesRange (SdcardRp2040w.write c) blockNr nBlocks data f ↔
      (c.Completes rp2040wTurns data.length →
        WriteShiftHidden rp2040wTurns c data f.contents (blockNr.toNat * sdBlockSize))) ∧
    (ReadsRange (SdcardRp2040w.read d) blockNr nBlocks buffer f ↔
      (d.Completes rp2040wTurns buffer.length →
        ReadShiftHidden rp2040wTurns d buffer.length f.contents (blockNr.toNat * sdBlockSize))) :=
  ⟨sdWrite_writesRange_iff h_range h_size h_data, sdRead_readsRange_iff h_range h_size h_buffer⟩

/-- A card whose first transfer stops after `k` bytes. -/
def stopsOnce (k : ℕ) : SdCalls where
  seeks := true
  moves i := if i = 0 then k else sdBlockSize

/-- A file whose second block is not like its first. -/
def twoBlocks : SdFile where
  contents a := if a < sdBlockSize then 1 else 2

theorem retried_exact :
    (SdcardRp2040w.write (stopsOnce 0) 0 1 (List.replicate sdBlockSize 7) twoBlocks).1 = true ∧
      WritesRange (SdcardRp2040w.write (stopsOnce 0)) 0 1 (List.replicate sdBlockSize 7)
        twoBlocks := by
  refine ⟨by decide +kernel, (retried_iff (stopsOnce 0) (stopsOnce 0) twoBlocks 0 1
    (List.replicate sdBlockSize 7) (List.replicate sdBlockSize 0) (by decide) (by decide)
    (by simp) (by simp)).1.mpr fun _ => ?_⟩
  exact (shiftHidden_of_sum_eq_zero (by rw [List.length_replicate]; decide +kernel)).1

/-- The first transfer stops in the middle of the block. -/
theorem retried_shifted :
    ¬ WritesRange (SdcardRp2040w.write (stopsOnce 256)) 0 1
        (7 :: List.replicate 511 0) twoBlocks ∧
      ¬ ReadsRange (SdcardRp2040w.read (stopsOnce 256)) 0 1
        (List.replicate sdBlockSize 0) twoBlocks := by
  constructor
  · intro h_range
    have h_byte := congrFun (h_range (by decide +kernel)) 256
    exact absurd h_byte (by decide +kernel)
  · intro h_range
    exact absurd (h_range (by decide +kernel)) (by decide +kernel)

end IscsiTarget
