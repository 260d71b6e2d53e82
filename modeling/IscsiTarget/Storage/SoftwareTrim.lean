import IscsiTarget.Model.SoftwareTrim
import IscsiTarget.Storage.Retry

/-!
# What trimming by writing leaves

When every write moves all it is asked for, the loop leaves the range with one block after
the other as it was allocated (`trimLoop_contents`, by induction on the turns that are left,
and `SoftwareTrim.trim_contents` for each backend). Three of the four allocate zeros, and the
range is cleared. The fourth does not initialise its block, and what it leaves is zeros when
the memory happened to be.
-/

namespace IscsiTarget

variable {blockNr : UInt64} {nBlocks : UInt32} {c : SdCalls} {calls : ℕ → SdCalls}
  {fresh : ℕ → UInt8}

/-- The calls of a `write` all succeed, and its first transfer moves everything. -/
def SdCalls.Succeeds (c : SdCalls) (nBytes : ℕ) : Prop := c.seeks = true ∧ nBytes ≤ c.moves 0

/-! ### One write -/

/-- A backend that asks at least once. -/
theorem sdWrite_of_succeeds {turns : List ℕ} {data : Bytes} (f : SdFile)
    (h : c.Succeeds sdBlockSize) (h_data : data.length = sdBlockSize) :
    (sdWrite (0 :: turns) c blockNr 1 data f).1 = true ∧
      (sdWrite (0 :: turns) c blockNr 1 data f).2.contents =
        f.contents.store (sdOffset blockNr) data := by
  have h_works : (sdWrite (0 :: turns) c blockNr 1 data f).1 = true :=
    sdWrite_fst.mpr ⟨h.1, 0, List.mem_cons_self, h.2⟩
  refine ⟨h_works, ?_⟩
  have h_pieces : c.pieces (0 :: turns) (sdBytes 1) = [] := SdCalls.pieces_cons_of_le h.2
  rw [sdWrite_contents h_data h_works, h_pieces, List.flatMap_nil, List.nil_append]

theorem BackendFile.write_of_succeeds {p : FilePlatform} {data : Bytes} (file : Medium UInt8)
    (h : c.Succeeds p.blockSize) (h_data : data.length = p.blockSize) :
    BackendFile.write p c blockNr 1 data file = (true, file.store (p.offset blockNr) data) := by
  have h_one : (1 : UInt32).toNat * p.blockSize = p.blockSize := Nat.one_mul _
  rw [BackendFile.write, if_pos h.1, h_one]
  simp only [Nat.min_eq_right h.2, beq_self_eq_true, List.take_of_length_le h_data.le]

/-! ### The loop -/

section Loop

variable {σ : Type*} {write : ℕ → UInt64 → UInt32 → Bytes → σ → Bool × σ} {data : Bytes} {n : ℕ}

theorem trimLoop_cons_of_true {i : ℕ} {is : List ℕ} {s : σ}
    (h : (write i (blockNr + UInt64.ofNat i) 1 data s).1 = true) :
    trimLoop write blockNr data (i :: is) s =
      trimLoop write blockNr data is (write i (blockNr + UInt64.ofNat i) 1 data s).2 := by
  rw [trimLoop]
  split
  · next s' h_eq =>
    rw [h_eq] at h
    cases h
  · next s' h_eq => rw [h_eq]

/-- **The loop.** If every write stores its block, `k` turns from turn `i` on
store `k` blocks from block `i` of the range on. -/
theorem trimLoop_contents (contents : σ → Medium UInt8)
    (h_write : ∀ i < n, ∀ s, (write i (blockNr + UInt64.ofNat i) 1 data s).1 = true ∧
      contents (write i (blockNr + UInt64.ofNat i) 1 data s).2 =
        (contents s).store (blockNr.toNat * data.length + i * data.length) data)
    {k i : ℕ} (h_turns : i + k ≤ n) (s : σ) :
    (trimLoop write blockNr data (List.range' i k) s).1 = true ∧
      contents (trimLoop write blockNr data (List.range' i k) s).2 =
        (contents s).store (blockNr.toNat * data.length + i * data.length)
          (List.replicate k data).flatten := by
  induction k generalizing i s with
  | zero => exact ⟨rfl, (Medium.store_nil _ _).symm⟩
  | succ k ih =>
    obtain ⟨h_works, h_stores⟩ := h_write i (by omega) s
    rw [List.range'_succ, trimLoop_cons_of_true h_works]
    obtain ⟨h_rest, h_contents⟩ :=
      ih (i := i + 1) (by omega) (write i (blockNr + UInt64.ofNat i) 1 data s).2
    refine ⟨h_rest, ?_⟩
    -- the block of this turn, and the others behind it
    rw [h_contents, h_stores, List.replicate_succ, List.flatten_cons, Medium.store_append,
      Nat.add_mul, Nat.one_mul, Nat.add_assoc]

end Loop

/-! ### The four backends -/

/-- On an SD card, with a transfer in turn 0 and perhaps in others. With calls
that work only turn 0 is taken. -/
theorem sdTrim_contents (turns : List ℕ) {data : Bytes} (f : SdFile)
    (h_data : data.length = sdBlockSize)
    (h_range : (blockNr.toNat + nBlocks.toNat) * sdBlockSize < 2 ^ 64)
    (h_calls : ∀ i < nBlocks.toNat, (calls i).Succeeds sdBlockSize) :
    (trimLoop (fun i => sdWrite (0 :: turns) (calls i)) blockNr data
        (List.range nBlocks.toNat) f).1 = true ∧
      (trimLoop (fun i => sdWrite (0 :: turns) (calls i)) blockNr data
        (List.range nBlocks.toNat) f).2.contents =
        f.contents.store (blockNr.toNat * sdBlockSize + 0 * sdBlockSize)
          (List.replicate nBlocks.toNat data).flatten := by
  rw [List.range_eq_range', ← h_data]
  refine trimLoop_contents SdFile.contents (fun i hi s => ?_) (Nat.zero_add _).le f
  -- the offset of a block is computed in 64 bits, and does not wrap around
  have h_off : sdOffset (blockNr + UInt64.ofNat i) =
      blockNr.toNat * sdBlockSize + i * sdBlockSize := toNat_offset h_range (by decide) hi.le
  rw [h_data, ← h_off]
  exact sdWrite_of_succeeds s (h_calls i hi) h_data

theorem fileTrim_contents {p : FilePlatform} {data : Bytes} (file : Medium UInt8)
    (h_data : data.length = p.blockSize)
    (h_range : (blockNr.toNat + nBlocks.toNat) * p.blockSize < 2 ^ 64)
    (h_calls : ∀ i < nBlocks.toNat, (calls i).Succeeds p.blockSize) :
    (trimLoop (fun i => BackendFile.write p (calls i)) blockNr data
        (List.range nBlocks.toNat) file).1 = true ∧
      (trimLoop (fun i => BackendFile.write p (calls i)) blockNr data
        (List.range nBlocks.toNat) file).2 =
        file.store (blockNr.toNat * p.blockSize + 0 * p.blockSize)
          (List.replicate nBlocks.toNat data).flatten := by
  rw [List.range_eq_range', ← h_data]
  refine trimLoop_contents id (fun i hi s => ?_) (Nat.zero_add _).le file
  -- as on the SD card, with the block size of the file
  have h_off : p.offset (blockNr + UInt64.ofNat i) =
      blockNr.toNat * p.blockSize + i * p.blockSize := toNat_offset h_range p.blockSize_pos hi.le
  rw [h_data, ← h_off, BackendFile.write_of_succeeds s (h_calls i hi) h_data]
  exact ⟨rfl, rfl⟩

namespace SoftwareTrim

variable {t : SoftwareTrim}

/-- The block that `trim` writes. -/
def block (fresh : ℕ → UInt8) (t : SoftwareTrim) : Bytes :=
  match t with
  | sdcardRp2040w => (List.range sdBlockSize).map fresh
  | t => List.replicate t.blockSize 0

theorem length_block : (t.block fresh).length = t.blockSize := by
  cases t <;> simp [block, blockSize]

/-- A trim whose writes all succeed leaves one block after the other. What is in
that block depends on the backend. -/
theorem trim_contents (fresh : ℕ → UInt8) (f : SdFile)
    (h_range : (blockNr.toNat + nBlocks.toNat) * t.blockSize < 2 ^ 64)
    (h_calls : ∀ i < nBlocks.toNat, (calls i).Succeeds t.blockSize) :
    (t.trim fresh calls blockNr nBlocks f).1 = true ∧
      (t.trim fresh calls blockNr nBlocks f).2.contents =
        f.contents.store (blockNr.toNat * t.blockSize)
          (List.replicate nBlocks.toNat (t.block fresh)).flatten := by
  have h_first : blockNr.toNat * t.blockSize = blockNr.toNat * t.blockSize + 0 * t.blockSize := by
    rw [Nat.zero_mul, Nat.add_zero]
  rw [h_first]
  -- the backends differ in the block they write, and in how often they try
  cases t with
  | file p _ => exact fileTrim_contents f.contents (List.length_replicate) h_range h_calls
  | sdcard => exact sdTrim_contents [] f (List.length_replicate) h_range h_calls
  | sdcardTeensy41 => exact sdTrim_contents [] f (List.length_replicate) h_range h_calls
  | sdcardRp2040w =>
    exact sdTrim_contents [1, 2, 3, 4] f ((List.length_map _).trans List.length_range) h_range
      h_calls

/-- The block is zeros, unless it is one that is not initialised. -/
theorem block_eq_zero_iff : t.block fresh = List.replicate t.blockSize 0 ↔
    (t = sdcardRp2040w → ∀ i < sdBlockSize, fresh i = 0) := by
  cases t with
  | sdcardRp2040w =>
    have h_block : (sdcardRp2040w.block fresh) = (List.range sdBlockSize).map fresh := rfl
    rw [h_block, List.eq_replicate_iff]
    simp [blockSize]
  | _ => exact iff_of_true rfl (fun h => nomatch h)

end SoftwareTrim

/-- The same number of copies of two lists of one length are the same when the
lists are, or when there is no copy. -/
theorem flatten_replicate_inj {α : Type*} {n : ℕ} {a b : List α} (h_len : a.length = b.length) :
    (List.replicate n a).flatten = (List.replicate n b).flatten ↔ n = 0 ∨ a = b := by
  cases n with
  | zero => simp
  | succ n =>
    -- one copy at least, and the first copies are as long as one another
    constructor
    · intro h
      rw [List.replicate_succ, List.replicate_succ, List.flatten_cons, List.flatten_cons] at h
      exact .inr (List.append_inj_left h h_len)
    · rintro (h_zero | rfl)
      · exact absurd h_zero (Nat.succ_ne_zero n)
      · rfl

/-- A trim that tells that it worked: the blocks of the range read as zeros, and
no other block has changed. -/
def ClearsRange (t : SoftwareTrim) (fresh : ℕ → UInt8) (calls : ℕ → SdCalls) (blockNr : UInt64)
    (nBlocks : UInt32) (f : SdFile) : Prop :=
  (t.trim fresh calls blockNr nBlocks f).1 = true →
    (t.trim fresh calls blockNr nBlocks f).2.contents =
      f.contents.clear (blockNr.toNat * t.blockSize) (nBlocks.toNat * t.blockSize)

/-- **Trimming by writing.** When all writes succeed, the range reads as zeros
afterwards and nothing else has changed; except on the RP2040W, where this
depends on what was in the memory that the block is allocated in. The one block
is written over and over, so it is the same bytes for the whole range. -/
theorem softwareTrim_iff (t : SoftwareTrim) (fresh : ℕ → UInt8) (calls : ℕ → SdCalls)
    (f : SdFile) (blockNr : UInt64) (nBlocks : UInt32)
    (h_range : (blockNr.toNat + nBlocks.toNat) * t.blockSize < 2 ^ 64)
    (h_calls : ∀ i < nBlocks.toNat, (calls i).Succeeds t.blockSize) :
    ClearsRange t fresh calls blockNr nBlocks f ↔
      (t = .sdcardRp2040w → nBlocks = 0 ∨ ∀ i < sdBlockSize, fresh i = 0) := by
  obtain ⟨h_works, h_contents⟩ := SoftwareTrim.trim_contents fresh f h_range h_calls
  have h_len : (t.block fresh).length = (List.replicate t.blockSize (0 : UInt8)).length := by
    rw [SoftwareTrim.length_block, List.length_replicate]
  have h_empty : nBlocks.toNat = 0 ↔ nBlocks = 0 := by
    rw [← UInt32.toNat_inj]
    rfl
  rw [ClearsRange, imp_iff_right h_works, h_contents, Medium.clear_eq_store,
    ← List.flatten_replicate_replicate, Medium.store_inj (by simp [h_len]),
    flatten_replicate_inj h_len, SoftwareTrim.block_eq_zero_iff, h_empty]
  -- the block is zeros on three of the backends, and whatever was there on the fourth
  constructor
  · rintro (h_zero | h_fresh) h_t
    · exact .inl h_zero
    · exact .inr (h_fresh h_t)
  · intro h
    by_cases h_t : t = .sdcardRp2040w
    · exact (h h_t).imp_right fun h_fresh _ => h_fresh
    · exact .inr fun h_eq => absurd h_eq h_t

/-- Calls that all succeed. -/
def allSucceed (_ : ℕ) : SdCalls := { seeks := true, moves _ := sdBlockSize }

theorem softwareTrim_clears :
    (SoftwareTrim.trim (fun _ => 0xa5) allSucceed 0 2 .sdcard twoBlocks).1 = true ∧
      ClearsRange .sdcard (fun _ => 0xa5) allSucceed 0 2 twoBlocks :=
  ⟨by decide +kernel, (softwareTrim_iff .sdcard (fun _ => 0xa5) allSucceed twoBlocks 0 2
    (by decide) (fun _ _ => ⟨rfl, le_rfl⟩)).mpr fun h => nomatch h⟩

/-- The memory that `new` returns on the RP2040W is not zero. -/
theorem softwareTrim_leaks : (∀ i, (allSucceed i).Succeeds sdBlockSize) ∧
    ¬ ClearsRange .sdcardRp2040w (fun _ => 0xa5) allSucceed 0 1 twoBlocks := by
  refine ⟨fun _ => ⟨rfl, le_rfl⟩, fun h_clears => ?_⟩
  have h_byte := congrFun (h_clears (by decide +kernel)) 0
  exact absurd h_byte (by decide +kernel)

end IscsiTarget
