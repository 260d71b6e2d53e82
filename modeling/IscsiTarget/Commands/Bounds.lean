import IscsiTarget.Commands.Refusal
import IscsiTarget.Lib.Extent
import IscsiTarget.Write.Immediate

/-!
# Which part of the data segment a command reads

`sendReads` lists the parts of the data segment that `scsi::send` and the functions behind it
read, in the order in which they do, next to the code that reads them: what a `memcpy`
copies, what is handed to the backend, and the numbers that are taken out of the list of an
UNMAP. A read that the rest of the model turns into `Fault.outOfBounds` is one that is not
inside (`unmapReads_iff`, `CompareFits.compareEnds`).

`readsInside_iff` says when all of it belongs to the segment. WRITE and WRITE SAME look at
the length of the segment; COMPARE AND WRITE and UNMAP do not.

What is handed to the backend need not all be read by it. A short COMPARE AND WRITE is handed
over all the same, and whether its handling ends depends on how far the backend gets: that is
`CompareEnds`, and `compareAndWrite_isOk_iff` says that it is the whole condition.
-/

namespace IscsiTarget

variable {β : Type} (T : Target β)

namespace Scsi

variable (s : Scsi β)

/-- `write` is handed `n` blocks from an index of the data segment on. -/
def writeReads (n : UInt32) (start : ℕ) : List Extent :=
  if s.lockingStatus T ≠ .lockedOther then [⟨start, T.nBytes n⟩] else []

/-- What `write_verify` reads of its data: the whole blocks, and the `memcpy` of
the fragment behind them. The fragment is reached only when the blocks have been
written, and the block it goes to has been read. -/
def writeVerifyReads (cdb : Cdb) (data : Bytes) : List Extent :=
  let (lba, transferLength) := cdb.range
  match s.validateRequest T lba transferLength (some cdb) with
  | some _ => []
  | none =>
    if data ≠ [] then
      let work := workNBlocks T transferLength data
      let first := s.storeBlocks T lba transferLength data
      let fragmentSize := data.length - T.nBytes work
      (if data.length / T.blockSize > 0 then s.writeReads T work 0 else []) ++
        (if first.1 = .ok ∧ fragmentSize > 0 ∧ fragmentSize < T.blockSize then
          match first.2.read T (lba + work.toUInt64) 1 with
          | (.ok _, _) => [⟨T.nBytes work, fragmentSize⟩]
          | (.error _, _) => []
        else [])
    else []

/-- What `compare_and_write` hands to the backend: the second half of the data
to be written, and the first one to be compared. Neither is checked against the
length of the data. -/
def compareAndWriteReads (cdb : Cdb) : List Extent :=
  let lba := getUint64 (getElem cdb 2 Cdb.lt2) (getElem cdb 3 Cdb.lt3) (getElem cdb 4 Cdb.lt4)
    (getElem cdb 5 Cdb.lt5) (getElem cdb 6 Cdb.lt6) (getElem cdb 7 Cdb.lt7)
    (getElem cdb 8 Cdb.lt8) (getElem cdb 9 Cdb.lt9)
  let blockCount := (getElem cdb 13 Cdb.lt13).toUInt32
  match s.validateRequest T lba blockCount (some cdb) with
  | some _ => []
  | none =>
    if blockCount > maxCompareAndWriteBlockCount then []
    else if s.lockingStatus T ≠ .lockedOther then
      [⟨T.nBytes blockCount, T.nBytes blockCount⟩, ⟨0, T.nBytes blockCount⟩]
    else []

/-- What the loop of `unmap` reads from index `i` on, `rest` being the bytes
there. It asks only whether there is another byte before it takes the twelve of
a descriptor. -/
def unmapReads (i : ℕ) : ℕ → UnmapState β → Bytes → List Extent
  | _, _, [] => []
  | turns + 1, u, d0 :: d1 :: d2 :: d3 :: d4 :: d5 :: d6 :: d7 :: n0 :: n1 :: n2 :: n3 :: rest =>
    ⟨i, 8⟩ :: ⟨i + 8, 4⟩ ::
      match unmapDescriptor T u (getUint64 d0 d1 d2 d3 d4 d5 d6 d7) (getUint32 n0 n1 n2 n3) with
      | (u', true) => unmapReads (i + 16) turns u' (rest.drop 4)
      | (_, false) => []
  | _, _, _ => [⟨i, 8⟩, ⟨i + 8, 4⟩]

/-- What `write_same` reads: every turn of its loops hands the same block to
`write`. By then the data is known to have a block, and with UNMAP set it is not
looked at. -/
def writeSameReads (cdb : Cdb) (data : Bytes) : List Extent :=
  let (lba, transferLength) := cdb.range
  let isUnmap := getElem cdb 1 Cdb.lt1 &&& 8 != 0
  match s.validateRequest T lba transferLength (some cdb) with
  | some _ => []
  | none =>
    if data = [] ∨ data.length / T.blockSize ≠ 1 ∨ isUnmap = true then []
    else if transferLength = 0 then
      if s.getSizeInBlocks T - lba > T.build.maxWsLen.toUInt64 then []
      else if lba < s.getSizeInBlocks T then s.writeReads T 1 0 else []
    else s.writeReads T 1 0

/-- What `send` reads of the data segment. The commands that are not listed have
no use for data, whatever comes with them. -/
def sendReads (cdb : Cdb) (data : Bytes) : List Extent :=
  match cdb.opcode with
  | .write6 | .write10 | .writeVerify10 | .write12 | .write16 => s.writeVerifyReads T cdb data
  | .compareAndWrite => s.compareAndWriteReads T cdb
  | .unmap => unmapReads T 8 data.length { scsi := s } (data.drop 8)
  | .writeSame10 | .writeSame16 => s.writeSameReads T cdb data
  | _ => []

/-- Every byte that is read belongs to the data segment. -/
def ReadsInside (cdb : Cdb) (data : Bytes) : Prop :=
  ∀ e ∈ s.sendReads T cdb data, ∀ i, e.Mem i → i < data.length

/-! ### When all of it is there -/

/-- A COMPARE AND WRITE that goes to the backend has come with both its halves.
One that is refused, or stopped by a reservation, fits with any data. -/
def CompareFits (cdb : Cdb) (data : Bytes) : Prop :=
  s.validateRequest T
      (getUint64 (getElem cdb 2 Cdb.lt2) (getElem cdb 3 Cdb.lt3) (getElem cdb 4 Cdb.lt4)
        (getElem cdb 5 Cdb.lt5) (getElem cdb 6 Cdb.lt6) (getElem cdb 7 Cdb.lt7)
        (getElem cdb 8 Cdb.lt8) (getElem cdb 9 Cdb.lt9))
      (getElem cdb 13 Cdb.lt13).toUInt32 (some cdb) ≠ none ∨
    (getElem cdb 13 Cdb.lt13).toUInt32 > maxCompareAndWriteBlockCount ∨
      s.lockingStatus T = .lockedOther ∨
      T.nBytes (getElem cdb 13 Cdb.lt13).toUInt32 * 2 ≤ data.length

/-- Of a COMPARE AND WRITE that goes to the backend, the part that the backend
reads has come. This is less than `CompareFits` asks for: one half is enough
when the block differs from it, and nothing is needed when the block cannot be
read. -/
def CompareEnds (cdb : Cdb) (data : Bytes) : Prop :=
  s.validateRequest T
      (getUint64 (getElem cdb 2 Cdb.lt2) (getElem cdb 3 Cdb.lt3) (getElem cdb 4 Cdb.lt4)
        (getElem cdb 5 Cdb.lt5) (getElem cdb 6 Cdb.lt6) (getElem cdb 7 Cdb.lt7)
        (getElem cdb 8 Cdb.lt8) (getElem cdb 9 Cdb.lt9))
      (getElem cdb 13 Cdb.lt13).toUInt32 (some cdb) ≠ none ∨
    (getElem cdb 13 Cdb.lt13).toUInt32 > maxCompareAndWriteBlockCount ∨
      s.lockingStatus T = .lockedOther ∨
      s.comparedBytes T
        (getUint64 (getElem cdb 2 Cdb.lt2) (getElem cdb 3 Cdb.lt3) (getElem cdb 4 Cdb.lt4)
          (getElem cdb 5 Cdb.lt5) (getElem cdb 6 Cdb.lt6) (getElem cdb 7 Cdb.lt7)
          (getElem cdb 8 Cdb.lt8) (getElem cdb 9 Cdb.lt9))
        (getElem cdb 13 Cdb.lt13).toUInt32 data ≤ data.length

/-- The list of an UNMAP does not end inside the address or the count of a
descriptor, or a trim fails before that. -/
def UnmapFits (bytes : Bytes) : Prop :=
  bytes.length % 16 = 0 ∨ 12 ≤ bytes.length % 16 ∨
    ∃ x ∈ reached T s (unmapDescriptors bytes), x.Trims T ∧ (x.trimmed T).1 ≠ .ok

variable {T s}

theorem inside_of_le {e : Extent} {n : ℕ} (h : e.off + e.len ≤ n) : ∀ i, e.Mem i → i < n := by
  intro i h_i
  exact lt_of_lt_of_le h_i.2 h

/-! ### WRITE and WRITE SAME -/

theorem writeReads_inside {n : UInt32} {m : ℕ} (h : T.nBytes n ≤ m) :
    ∀ e ∈ s.writeReads T n 0, ∀ i, e.Mem i → i < m := by
  intro e he
  unfold writeReads at he
  split at he
  · obtain rfl := List.mem_singleton.mp he
    exact inside_of_le (by rw [Nat.zero_add]; exact h)
  · exact absurd he (by simp)

/-- **WRITE** reads the whole blocks and the fragment behind them. The number of
whole blocks is taken from the data that came, and the fragment is what is left
of it. -/
theorem writeVerifyReads_inside {cdb : Cdb} {data : Bytes} :
    ∀ e ∈ s.writeVerifyReads T cdb data, ∀ i, e.Mem i → i < data.length := by
  intro e he
  unfold writeVerifyReads at he
  generalize cdb.range = range at he
  obtain ⟨lba, n⟩ := range
  -- `work_n_bytes` is at most the length of what has come
  have h_work := @workBytes_le _ T n data
  dsimp only at he
  split at he
  · exact absurd he (by simp)
  · split at he
    · rcases List.mem_append.mp he with he | he
      · split at he
        · exact writeReads_inside h_work e he
        · exact absurd he (by simp)
      · split at he
        · split at he
          · -- the fragment ends where the data does
            obtain rfl := List.mem_singleton.mp he
            exact inside_of_le (by dsimp only; omega)
          · exact absurd he (by simp)
        · exact absurd he (by simp)
    · exact absurd he (by simp)

/-- **WRITE SAME** reads one block, when one has come. With less or more it does
not get that far. -/
theorem writeSameReads_inside {cdb : Cdb} {data : Bytes} :
    ∀ e ∈ s.writeSameReads T cdb data, ∀ i, e.Mem i → i < data.length := by
  intro e he
  unfold writeSameReads at he
  generalize cdb.range = range at he
  obtain ⟨lba, n⟩ := range
  dsimp only at he
  split at he
  · exact absurd he (by simp)
  · split at he
    · exact absurd he (by simp)
    · next h =>
      push Not at h
      -- a block has come, as the handler has counted them
      have h_block : T.nBytes 1 ≤ data.length := by
        have h_one : T.nBytes 1 = T.blockSize := Nat.one_mul _
        rw [h_one]
        by_contra h_short
        have h_count := h.2.1
        rw [Nat.div_eq_of_lt (Nat.not_le.mp h_short)] at h_count
        exact absurd h_count (by decide)
      split at he
      · split at he
        · exact absurd he (by simp)
        · split at he
          · exact writeReads_inside h_block e he
          · exact absurd he (by simp)
      · exact writeReads_inside h_block e he

/-! ### COMPARE AND WRITE -/

/-- **COMPARE AND WRITE** reads both halves, whatever has come. Nothing compares
the length of the data with them, so that inside means that both halves are
there. -/
theorem compareAndWriteReads_iff {cdb : Cdb} {data : Bytes} :
    (∀ e ∈ s.compareAndWriteReads T cdb, ∀ i, e.Mem i → i < data.length) ↔
      s.CompareFits T cdb data := by
  unfold compareAndWriteReads CompareFits
  generalize getUint64 cdb[2] cdb[3] cdb[4] cdb[5] cdb[6] cdb[7] cdb[8] cdb[9] = lba
  generalize cdb[13].toUInt32 = n
  dsimp only
  split
  · next h => simp [h]
  · next h =>
    split
    · next h_many => simp [h_many]
    · next h_many =>
      split
      · next h_lock =>
        rw [List.forall_mem_cons, List.forall_mem_singleton]
        simp only [h, h_many, h_lock, ne_eq, not_true_eq_false, false_or]
        constructor
        · rintro ⟨h_second, -⟩
          -- the last byte of the second half
          by_contra h_short
          have h_last := h_second (T.nBytes n * 2 - 1) ⟨by dsimp only; omega, by dsimp only; omega⟩
          omega
        · intro h_fits
          exact ⟨inside_of_le (by dsimp only; omega), inside_of_le (by dsimp only; omega)⟩
      · next h_lock => simp [not_not.mp h_lock]

/-- However the call ends, the backend reads no more than the two halves. -/
theorem comparedBytes_le (lba : UInt64) (n : UInt32) (data : Bytes) :
    s.comparedBytes T lba n data ≤ T.nBytes n * 2 := by
  unfold comparedBytes
  dsimp only
  split
  · split <;> omega
  · omega
  · split <;> omega
  · exact le_refl _

/-- With both halves there is nothing behind the data to be read. -/
theorem CompareFits.compareEnds {cdb : Cdb} {data : Bytes} (h : s.CompareFits T cdb data) :
    s.CompareEnds T cdb data := by
  rcases h with h | h | h | h
  · exact .inl h
  · exact .inr (.inl h)
  · exact .inr (.inr (.inl h))
  · exact .inr (.inr (.inr ((comparedBytes_le _ _ _).trans h)))

/-- A read behind the data is what ends in a fault, and nothing else is. How far
a backend reads depends on what it finds on the medium. -/
theorem compareAndWrite_isOk_iff {cdb : Cdb} {data : Bytes} :
    (∃ r, s.compareAndWrite T cdb data = .ok r) ↔ s.CompareEnds T cdb data := by
  unfold compareAndWrite CompareEnds
  generalize getUint64 cdb[2] cdb[3] cdb[4] cdb[5] cdb[6] cdb[7] cdb[8] cdb[9] = lba
  generalize cdb[13].toUInt32 = n
  dsimp only
  split
  · next h => simp [h]
  · next h =>
    split
    · next h_many => simp [h_many]
    · next h_many =>
      split
      · next h_short =>
        have h_less := h_short.2
        refine iff_of_false (by simp) ?_
        simp only [h, h_many, h_short.1, ne_eq, not_true_eq_false, false_or]
        omega
      · next h_fits =>
        refine iff_of_true ?_ ?_
        · generalize s.cmpwrite T lba n (data.drop (T.nBytes n)) data = r
          obtain ⟨rc, s'⟩ := r
          cases rc <;> exact ⟨_, rfl⟩
        · by_cases h_lock : s.lockingStatus T = .lockedOther
          · exact .inr (.inr (.inl h_lock))
          · exact .inr (.inr (.inr (Nat.not_lt.mp fun h_less => h_fits ⟨h_lock, h_less⟩)))

/-! ### UNMAP -/

/-- Twelve bytes are an address and a count. -/
theorem exists_descriptor {bytes : Bytes} (h : 12 ≤ bytes.length) :
    ∃ d0 d1 d2 d3 d4 d5 d6 d7 n0 n1 n2 n3 rest, bytes =
      d0 :: d1 :: d2 :: d3 :: d4 :: d5 :: d6 :: d7 :: n0 :: n1 :: n2 :: n3 :: rest := by
  match bytes with
  | d0 :: d1 :: d2 :: d3 :: d4 :: d5 :: d6 :: d7 :: n0 :: n1 :: n2 :: n3 :: rest =>
    exact ⟨d0, d1, d2, d3, d4, d5, d6, d7, n0, n1, n2, n3, rest, rfl⟩
  | [] | [_] | [_, _] | [_, _, _] | [_, _, _, _] | [_, _, _, _, _] | [_, _, _, _, _, _]
  | [_, _, _, _, _, _, _] | [_, _, _, _, _, _, _, _] | [_, _, _, _, _, _, _, _, _]
  | [_, _, _, _, _, _, _, _, _, _] | [_, _, _, _, _, _, _, _, _, _, _] => simp at h

/-- With less, the loop reads past the end. -/
theorem unmapLoop_of_short {turns : ℕ} {u : UnmapState β} {bytes : Bytes} (h_pos : bytes ≠ [])
    (h : bytes.length < 12) : unmapLoop T turns u bytes = .error .outOfBounds := by
  unfold unmapLoop
  split
  · exact absurd rfl h_pos
  · simp only [List.length_cons] at h
    omega
  · rfl

theorem unmapReads_of_short {i turns : ℕ} {u : UnmapState β} {bytes : Bytes} (h_pos : bytes ≠ [])
    (h : bytes.length < 12) : unmapReads T i turns u bytes = [⟨i, 8⟩, ⟨i + 8, 4⟩] := by
  unfold unmapReads
  split
  · exact absurd rfl h_pos
  · simp only [List.length_cons] at h
    omega
  · rfl

/-- **What the loop reads is there** exactly when the loop gets through. By
induction on the turns, each of which takes a descriptor off the front. -/
theorem unmapReads_iff {turns i : ℕ} {u : UnmapState β} {bytes : Bytes}
    (h_turns : bytes.length ≤ turns) :
    (∀ e ∈ unmapReads T i turns u bytes, ∀ p, e.Mem p → p < i + bytes.length) ↔
      ∃ u', unmapLoop T turns u bytes = .ok u' := by
  induction turns generalizing i u bytes with
  | zero =>
    obtain rfl := List.eq_nil_of_length_eq_zero (Nat.le_zero.mp h_turns)
    exact iff_of_true (by simp [unmapReads]) ⟨u, by rw [unmapLoop.eq_def]⟩
  | succ turns ih =>
    by_cases h_nil : bytes = []
    · subst h_nil
      exact iff_of_true (by simp [unmapReads]) ⟨u, by rw [unmapLoop.eq_def]⟩
    by_cases h_short : bytes.length < 12
    · rw [unmapReads_of_short h_nil h_short, unmapLoop_of_short h_nil h_short]
      refine iff_of_false ?_ (by simp)
      intro h_all
      -- the last byte of the count
      have h_last := h_all ⟨i + 8, 4⟩ (by simp) (i + 11)
          ⟨by dsimp only; omega, by dsimp only; omega⟩
      omega
    obtain ⟨d0, d1, d2, d3, d4, d5, d6, d7, n0, n1, n2, n3, rest, rfl⟩ :=
      exists_descriptor (Nat.not_lt.mp h_short)
    rw [unmapReads, unmapLoop, List.forall_mem_cons, List.forall_mem_cons]
    rw [and_iff_right (inside_of_le (by simp only [List.length_cons]; omega)),
      and_iff_right (inside_of_le (by simp only [List.length_cons]; omega))]
    generalize unmapDescriptor T u (getUint64 d0 d1 d2 d3 d4 d5 d6 d7)
      (getUint32 n0 n1 n2 n3) = r
    obtain ⟨u₁, b⟩ := r
    cases b with
    | false => simp
    | true =>
      dsimp only
      simp only [List.length_cons] at h_turns
      have h_drop : (rest.drop 4).length = rest.length - 4 := List.length_drop
      rw [← ih (i := i + 16) (by omega)]
      by_cases h_four : 4 ≤ rest.length
      · have h_len : i + (rest.length + 1 + 1 + 1 + 1 + 1 + 1 + 1 + 1 + 1 + 1 + 1 + 1) =
            i + 16 + (rest.drop 4).length := by omega
        simp only [List.length_cons, h_len]
      · have h_nil' : rest.drop 4 = [] := List.eq_nil_of_length_eq_zero (by omega)
        rw [h_nil']
        simp [unmapReads]

/-- A trim that fails is the descriptor at hand or one of those behind it. If it
is the one at hand, the others are not reached. -/
theorem exists_failed_cons {u : UnmapState β} {d : UInt64 × UInt32} {ds : List (UInt64 × UInt32)} :
    (∃ x ∈ reached T u.scsi (d :: ds), x.Trims T ∧ (x.trimmed T).1 ≠ .ok) ↔
      if (unmapDescriptor T u d.1 d.2).2 then
        ∃ x ∈ reached T (unmapDescriptor T u d.1 d.2).1.scsi ds, x.Trims T ∧ (x.trimmed T).1 ≠ .ok
      else True := by
  rw [reached, List.exists_mem_cons_iff]
  by_cases h_refused : (⟨u.scsi, d.1, d.2⟩ : Meeting β).Refused T
  · -- refused, so nothing is trimmed and the loop goes on
    obtain ⟨sense, -, h_eq⟩ := unmapDescriptor_of_refused h_refused
    have h_trims : ¬ (⟨u.scsi, d.1, d.2⟩ : Meeting β).Trims T := fun h => h.1 h_refused
    rw [h_eq, if_neg h_trims, if_pos rfl]
    exact or_iff_right fun h => h_trims h.1
  by_cases h_trims : (⟨u.scsi, d.1, d.2⟩ : Meeting β).Trims T
  · -- trimmed, which goes well or is what fails
    rw [unmapDescriptor_of_trims h_trims, if_pos h_trims]
    by_cases h_ok : (u.scsi.trim T d.1 d.2).1 = .ok
    · have h_ok' : ((⟨u.scsi, d.1, d.2⟩ : Meeting β).trimmed T).1 = .ok := h_ok
      rw [if_pos h_ok', if_pos (by simpa using h_ok)]
      exact or_iff_right fun h => h.2 h_ok
    · refine iff_of_true (.inl ⟨h_trims, h_ok⟩) ?_
      simp [h_ok]
  · -- empty, and the loop goes on
    rw [unmapDescriptor_of_empty h_refused h_trims, if_neg h_trims, if_pos rfl]
    exact or_iff_right fun h => h_trims h.1

/-- **The loop gets through** unless the list ends inside a descriptor it comes
to. A trim that fails before that ends the loop, and then the end of the list
does not matter. -/
theorem unmapLoop_isOk_iff {turns : ℕ} {u : UnmapState β} {bytes : Bytes}
    (h_turns : bytes.length ≤ turns) :
    (∃ u', unmapLoop T turns u bytes = .ok u') ↔ u.scsi.UnmapFits T bytes := by
  induction turns generalizing u bytes with
  | zero =>
    obtain rfl := List.eq_nil_of_length_eq_zero (Nat.le_zero.mp h_turns)
    exact iff_of_true ⟨u, by rw [unmapLoop.eq_def]⟩ (.inl rfl)
  | succ turns ih =>
    by_cases h_nil : bytes = []
    · subst h_nil
      exact iff_of_true ⟨u, by rw [unmapLoop.eq_def]⟩ (.inl rfl)
    by_cases h_short : bytes.length < 12
    · -- the list ends inside the first descriptor
      have h_pos : 0 < bytes.length := List.length_pos_of_ne_nil h_nil
      rw [unmapLoop_of_short h_nil h_short]
      refine iff_of_false (by simp) ?_
      rintro (h_mod | h_mod | ⟨x, h_x, -⟩)
      · omega
      · omega
      · rw [unmapDescriptors_of_short h_short] at h_x
        exact absurd h_x (by simp [reached])
    obtain ⟨d0, d1, d2, d3, d4, d5, d6, d7, n0, n1, n2, n3, rest, rfl⟩ :=
      exists_descriptor (Nat.not_lt.mp h_short)
    have h_drop : (rest.drop 4).length = rest.length - 4 := List.length_drop
    unfold UnmapFits
    rw [unmapLoop, unmapDescriptors_cons, exists_failed_cons]
    dsimp only
    simp only [List.length_cons] at h_turns ⊢
    generalize unmapDescriptor T u (getUint64 d0 d1 d2 d3 d4 d5 d6 d7)
      (getUint32 n0 n1 n2 n3) = r
    obtain ⟨u₁, b⟩ := r
    cases b with
    -- the loop ends with a failure, and so does the reading
    | false => simp
    -- sixteen bytes less, so what is left over is the same
    | true =>
      dsimp only
      rw [ih (by omega), if_pos rfl]
      unfold UnmapFits
      by_cases h_four : 4 ≤ rest.length
      · have h_mod : (rest.length + 1 + 1 + 1 + 1 + 1 + 1 + 1 + 1 + 1 + 1 + 1 + 1) % 16 =
            (rest.drop 4).length % 16 := by omega
        rw [h_mod]
      · exact iff_of_true (.inl (by omega)) (.inr (.inl (by omega)))

/-- It is what ends in a fault. -/
theorem unmap_isOk_iff {data : Bytes} :
    (∃ r, s.unmap T data = .ok r) ↔ s.UnmapFits T (data.drop 8) := by
  have h_len : (data.drop 8).length ≤ data.length := by
    rw [List.length_drop]
    exact Nat.sub_le _ _
  rw [← unmapLoop_isOk_iff (T := T) (u := ({ scsi := s } : UnmapState β)) h_len]
  unfold unmap
  cases unmapLoop T data.length { scsi := s } (data.drop 8) with
  | error f => simp
  | ok u => exact iff_of_true ⟨_, rfl⟩ ⟨u, rfl⟩

/-! ### All commands -/

/-- **No handler reads past the received data** exactly when a COMPARE AND WRITE
has come with both its halves, and the list of an UNMAP does not end inside a
descriptor that is reached. -/
theorem readsInside_iff (s : Scsi β) (cdb : Cdb) (data : Bytes) :
    s.ReadsInside T cdb data ↔
      (cdb.opcode = .compareAndWrite → s.CompareFits T cdb data) ∧
        (cdb.opcode = .unmap → s.UnmapFits T (data.drop 8)) := by
  unfold ReadsInside sendReads
  generalize cdb.opcode = op
  cases op with
  -- the handlers that look at the length of the data before they read
  | write6 | write10 | writeVerify10 | write12 | write16 =>
    exact iff_of_true writeVerifyReads_inside (by simp)
  | writeSame10 | writeSame16 => exact iff_of_true writeSameReads_inside (by simp)
  | compareAndWrite =>
    dsimp only
    rw [compareAndWriteReads_iff]
    simp
  | unmap =>
    dsimp only
    have h_len : (data.drop 8).length = data.length - 8 := List.length_drop
    -- the reads of the loop are inside exactly when it gets through
    have h_iff : (∀ e ∈ unmapReads T 8 data.length { scsi := s } (data.drop 8),
        ∀ p, e.Mem p → p < 8 + (data.drop 8).length) ↔
          ∃ u', unmapLoop T data.length { scsi := s } (data.drop 8) = .ok u' :=
      unmapReads_iff (by omega)
    rw [unmapLoop_isOk_iff (by omega)] at h_iff
    simp only [reduceCtorEq, false_implies, true_and, true_implies]
    rw [← h_iff]
    by_cases h_header : 8 ≤ data.length
    · rw [h_len, Nat.add_sub_cancel' h_header]
    · have h_nil : data.drop 8 = [] := List.drop_eq_nil_of_le (by omega)
      simp [h_nil, unmapReads]
  | _ => exact iff_of_true (by simp) (by simp)

end Scsi

/-- A COMPARE AND WRITE of one block that has come with the first half only: the
backend is handed the 16 bytes behind the data segment. -/
theorem readsInside_compare_fails :
    ⟨16, 16⟩ ∈ (Sample.ones []).sendReads (Sample.target 8)
        #v[0x89, 0, 0, 0, 0, 0, 0, 0, 0, 2, 0, 0, 0, 1, 0, 0] (Sample.block 1) ∧
      ¬ (Sample.ones []).ReadsInside (Sample.target 8)
        #v[0x89, 0, 0, 0, 0, 0, 0, 0, 0, 2, 0, 0, 0, 1, 0, 0] (Sample.block 1) := by
  have h_mem : (⟨16, 16⟩ : Extent) ∈ (Sample.ones []).sendReads (Sample.target 8)
      #v[0x89, 0, 0, 0, 0, 0, 0, 0, 0, 2, 0, 0, 0, 1, 0, 0] (Sample.block 1) := by decide +kernel
  refine ⟨h_mem, fun h => ?_⟩
  exact absurd (h _ h_mem 16 (by decide)) (by decide)

end IscsiTarget
