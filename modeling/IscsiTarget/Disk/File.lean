import IscsiTarget.Disk.CompareWrite
import IscsiTarget.Storage.FileCmpwrite

/-!
# The file backend keeps the contracts

`FilePlatform.backendFile` is `backend_file` with nobody else at work: a function makes its
system calls one after the other, as `FilePlatform.act` has them. How each of them ends is
up to the system (`FileDisk.calls`): with an error, or with as many bytes as it likes.

Whatever that is, the backend keeps the contracts that the commands rest on
(`backendFile_keeps`), for what it reports as done: a call that moves less than it was asked
for is a failure.
-/

/-- Two ranges one behind the other. -/
theorem Medium.clear_clear {α : Type*} [Zero α] (m : Medium α) (off a b : ℕ) :
    (m.clear off a).clear (off + a) b = m.clear off (a + b) := by
  funext x
  unfold Medium.clear
  by_cases h : off + a ≤ x ∧ x < off + a + b
  · rw [if_pos h, if_pos (by omega)]
  · rw [if_neg h]
    refine if_congr ?_ rfl rfl
    omega

namespace IscsiTarget

open LockedSections

/-! ### An open file -/

/-- A file, and how the next system calls end, the first one at the head: with
an error, or with so many bytes at most. When the list is used up they move all
they are asked for. -/
structure FileDisk where
  contents : Medium UInt8
  size : ℕ
  /-- No file is longer than an `off_t`. -/
  size_lt : size < 2 ^ 63
  calls : List (Option ℕ)

/-- What a system call is asked for: how many bytes, from which place in the
file on, and in which direction. -/
structure SysCall where
  nBytes : ℕ
  off : ℕ
  /-- Whether it is a `pwrite`. -/
  writes : Bool

namespace FileDisk

variable (d : FileDisk) (call : SysCall)

/-- How the next system call ends. Only a `pwrite` goes on behind the end of the
file, and none behind the largest offset. -/
def result : Option ℕ :=
  match d.calls.headD (some call.nBytes) with
  | none => none
  | some k =>
    if call.off + call.nBytes < 2 ^ 63 then
      some (min k (if call.writes then call.nBytes else min call.nBytes (d.size - call.off)))
    else none

/-- How long the file is behind a system call that ends so. It is longer when
something has been written behind the end, up to the largest offset there is. -/
def grown : Option ℕ → ℕ
  | none => d.size
  | some k =>
    if call.writes = true ∧ 0 < k ∧ call.off + k < 2 ^ 63 then max d.size (call.off + k)
    else d.size

theorem grown_lt (rc : Option ℕ) : d.grown call rc < 2 ^ 63 := by
  unfold grown
  split
  · exact d.size_lt
  · split
    · next h => exact max_lt d.size_lt h.2.2
    · exact d.size_lt

variable {d call}

theorem result_le {k : ℕ} (h : d.result call = some k) :
    k ≤ call.nBytes ∧ call.off + call.nBytes < 2 ^ 63 := by
  unfold result at h
  split at h
  · cases h
  · split at h
    · next h_lt =>
      obtain rfl := Option.some.inj h
      refine ⟨?_, h_lt⟩
      split <;> omega
    · cases h

/-- Inside the file nothing grows: what is written there ends at the end of the
file at the latest. -/
theorem grown_of_inside (h : call.writes = true → call.off + call.nBytes ≤ d.size) :
    d.grown call (d.result call) = d.size := by
  cases h_rc : d.result call with
  | none => rfl
  | some k =>
    have h_le := (result_le h_rc).1
    unfold grown
    dsimp only
    split
    · next h_writes =>
      have := h h_writes.1
      omega
    · rfl

/-- A system that does all it is asked for. -/
theorem result_of_calls (h : d.calls = []) (h_inside : call.off + call.nBytes ≤ d.size) :
    d.result call = some call.nBytes := by
  have h_lt : call.off + call.nBytes < 2 ^ 63 := h_inside.trans_lt d.size_lt
  unfold result
  rw [h, List.headD_nil]
  dsimp only
  rw [if_pos h_lt]
  congr 1
  split <;> omega

end FileDisk

namespace FilePlatform

variable (p : FilePlatform)

/-! ### The backend -/

theorem blockSize_lt : p.blockSize < 2 ^ 32 := by
  unfold blockSize
  split <;> norm_num

/-- The system call of a section at this point of the work. A compare-and-write
makes a `pread` for each block, and a single `pwrite` when all of them agree. -/
def sysCall : FileSection → FileWork → SysCall
  | .write blockNr nBlocks _, _ =>
    { nBytes := nBlocks.toNat * p.blockSize, off := p.offset blockNr, writes := true }
  | .punchHole blockNr nBlocks, _ =>
    { nBytes := nBlocks.toNat * p.blockSize, off := p.offset blockNr, writes := false }
  | .read blockNr nBlocks, _ =>
    { nBytes := nBlocks.toNat * p.blockSize, off := p.offset blockNr, writes := false }
  | .cmpwrite blockNr nBlocks _ _, .turn i =>
    if i < nBlocks.toNat then
      { nBytes := p.blockSize, off := p.offset (blockNr + UInt64.ofNat i), writes := false }
    else { nBytes := nBlocks.toNat * p.blockSize, off := p.offset blockNr, writes := true }
  | .cmpwrite _ _ _ _, _ => { nBytes := 0, off := 0, writes := false }

/-- One system call. Its result is the next one of the list, and it decides how
the work goes on and how much of the file has changed. -/
def turn (sec : FileSection) (w : FileWork) (d : FileDisk) : FileWork × FileDisk :=
  let call := p.sysCall sec w
  let rc := d.result call
  match p.act rc sec w d.contents with
  | none => (w, d)
  | some (w', contents) =>
    (w',
      { contents := contents
        size := d.grown call rc
        size_lt := d.grown_lt call rc
        calls := d.calls.tail })

/-- The work on a section, with so many system calls at most. A section that is
done makes no further ones. -/
def perform (sec : FileSection) : ℕ → FileWork → FileDisk → FileWork × FileDisk
  | 0, w, d => (w, d)
  | n + 1, w, d =>
    if p.program.finished w then (w, d)
    else perform sec n (p.turn sec w d).1 (p.turn sec w d).2

/-- One section after the other, until one fails. Each makes one system call.
What the earlier sections have done stays done when a later one fails. -/
def performAll : List FileSection → FileDisk → Bool × FileDisk
  | [], d => (true, d)
  | sec :: secs, d =>
    let res := p.perform sec 1 (.turn 0) d
    if res.1 = .done true then performAll secs res.2 else (false, res.2)

/-- `backend_file`, alone with its file: the sections it works through under its
locks are the ones of the threaded program, and the outcomes of the system calls
are taken from the state of the disk. -/
def backendFile : Backend FileDisk where
  getSizeInBlocks d := UInt64.ofNat (d.size / p.blockSize)
  getBlockSize := p.blockSize
  getBlockSize_pos := p.blockSize_pos
  getBlockSize_lt := p.blockSize_lt
  sync d := (decide (d.calls.headD (some 0) ≠ none), { d with calls := d.calls.tail })
  write d blockNr nBlocks data := p.performAll (p.sections (.write blockNr nBlocks data)) d
  trim d blockNr nBlocks := p.performAll (p.sections (.trim blockNr nBlocks)) d
  read d blockNr nBlocks :=
    let res := p.performAll (p.sections (.read blockNr nBlocks)) d
    (if res.1 then some (d.contents.slice (p.offset blockNr) (nBlocks.toNat * p.blockSize))
      else none, res.2)
  cmpwrite d blockNr nBlocks dataWrite dataCompare :=
    let nBytes := nBlocks.toNat * p.blockSize
    -- of the two buffers as much is used as there are blocks
    let sec := .cmpwrite blockNr nBlocks (dataWrite.take nBytes) (dataCompare.take nBytes)
    let res := p.perform sec (nBlocks.toNat + 1) (.turn 0) d
    (match res.1 with
      | .compared result => result
      | _ => .readError, res.2)
  -- `pread` comes first, and `pwrite` is handed the data
  failsLate d blockNr nBlocks dataWrite dataCompare :=
    let call := p.sysCall (.cmpwrite blockNr nBlocks dataWrite dataCompare) (.turn 0)
    d.result call == some call.nBytes

variable {p} {sec : FileSection} {w : FileWork} {d : FileDisk} {blockNr : UInt64}
  {nBlocks : UInt32} {data : Bytes} {i : ℕ}

/-! ### One system call -/

theorem exists_pwrite {rc : Option ℕ} {nBytes off : ℕ} (data : Bytes) (file : Medium UInt8)
    (h : ∀ k, rc = some k → k ≤ nBytes ∧ off + nBytes < 2 ^ 63) :
    ∃ res, pwrite rc data nBytes off file = some res := by
  cases rc with
  | none => exact ⟨_, rfl⟩
  | some k =>
    obtain ⟨h_le, h_lt⟩ := h k rfl
    exact ⟨_, if_pos ⟨h_le, by omega⟩⟩

/-- However the system call ends, the work goes on: the results of the disk are
ones that a system call can have, so that the program has a step for each. -/
theorem act_turn (sec : FileSection) (i : ℕ) (d : FileDisk) :
    p.act (d.result (p.sysCall sec (.turn i))) sec (.turn i) d.contents =
      some ((p.turn sec (.turn i) d).1, (p.turn sec (.turn i) d).2.contents) := by
  have h_le := fun k => @FileDisk.result_le d (p.sysCall sec (.turn i)) k
  obtain ⟨⟨w', m'⟩, h_act⟩ : ∃ res,
      p.act (d.result (p.sysCall sec (.turn i))) sec (.turn i) d.contents = some res := by
    -- what the system moves is what `act` allows
    generalize d.result (p.sysCall sec (.turn i)) = rc at h_le ⊢
    cases sec with
    | write blockNr nBlocks data =>
      obtain ⟨res, h_res⟩ := exists_pwrite data d.contents h_le
      exact ⟨_, Option.map_eq_some_iff.mpr ⟨res, h_res, rfl⟩⟩
    | punchHole blockNr nBlocks =>
      cases rc with
      | none => exact ⟨_, rfl⟩
      | some k => exact ⟨_, if_pos (h_le k rfl).2⟩
    | read blockNr nBlocks =>
      cases rc with
      | none => exact ⟨_, rfl⟩
      | some k => exact ⟨_, if_pos (h_le k rfl).1⟩
    | cmpwrite blockNr nBlocks dataWrite dataCompare =>
      unfold act sysCall at *
      dsimp only at *
      split
      · split
        · split <;> exact ⟨_, rfl⟩
        · exact ⟨_, rfl⟩
      · next h_turn =>
        rw [if_neg h_turn] at h_le
        obtain ⟨res, h_res⟩ := exists_pwrite dataWrite d.contents h_le
        exact ⟨_, Option.map_eq_some_iff.mpr ⟨res, h_res, rfl⟩⟩
  simp only [turn, h_act]

theorem turn_size (h : (p.sysCall sec w).writes = true →
    (p.sysCall sec w).off + (p.sysCall sec w).nBytes ≤ d.size) :
    (p.turn sec w d).2.size = d.size := by
  unfold turn
  dsimp only
  split
  · rfl
  · exact FileDisk.grown_of_inside h

theorem turn_calls (h : d.calls = []) : (p.turn sec w d).2.calls = [] := by
  unfold turn
  dsimp only
  split
  · exact h
  · rw [h, List.tail_nil]

/-- All sections but that of `cmpwrite` are through with one system call.
Without a result from outside it moves all its bytes, since they are inside the
file. -/
theorem turn_of_calls (h : d.calls = [])
    (h_inside : (p.sysCall sec (.turn i)).off + (p.sysCall sec (.turn i)).nBytes ≤ d.size)
    (h_sec : ∀ blockNr nBlocks dataWrite dataCompare,
      sec ≠ .cmpwrite blockNr nBlocks dataWrite dataCompare) :
    (p.turn sec (.turn i) d).1 = .done true := by
  have h_act := act_turn (p := p) sec i d
  rw [FileDisk.result_of_calls h h_inside] at h_act
  cases sec with
  -- the system call moves all bytes, and the function compares their number with what it asked for
  | write blockNr nBlocks data =>
    obtain ⟨⟨rc, file⟩, h_pwrite, h_eq⟩ := Option.map_eq_some_iff.mp h_act
    unfold pwrite at h_pwrite
    dsimp only at h_pwrite
    split at h_pwrite
    · obtain ⟨rfl, -⟩ := Prod.mk.inj (Option.some.inj h_pwrite)
      rw [← (Prod.mk.inj h_eq).1]
      exact congrArg FileWork.done (beq_self_eq_true _)
    · cases h_pwrite
  -- a hole is made, or not
  | punchHole blockNr nBlocks =>
    simp only [act] at h_act
    split at h_act
    · exact (Prod.mk.inj (Option.some.inj h_act)).1.symm
    · cases h_act
  | read blockNr nBlocks =>
    simp only [act] at h_act
    split at h_act
    · rw [← (Prod.mk.inj (Option.some.inj h_act)).1]
      exact congrArg FileWork.done (beq_self_eq_true _)
    · cases h_act
  | cmpwrite blockNr nBlocks dataWrite dataCompare => exact absurd rfl (h_sec _ _ _ _)

/-- A `pwrite` of everything. -/
theorem eq_store_of_pwrite {rc : Option ℕ} {nBytes off : ℕ} {m m' : Medium UInt8}
    (h : pwrite rc data nBytes off m = some (some nBytes, m')) :
    m' = m.store off (data.take nBytes) := by
  unfold pwrite at h
  split at h
  · cases h
  · split at h
    · obtain ⟨h_all, rfl⟩ := Prod.mk.inj (Option.some.inj h)
      rw [Option.some.inj h_all]
    · cases h

/-- A write that has worked. -/
theorem turn_write (h : (p.turn (.write blockNr nBlocks data) (.turn i) d).1 = .done true) :
    (p.turn (.write blockNr nBlocks data) (.turn i) d).2.contents =
      d.contents.store (p.offset blockNr) (data.take (nBlocks.toNat * p.blockSize)) := by
  have h_act := act_turn (p := p) (.write blockNr nBlocks data) i d
  rw [h] at h_act
  obtain ⟨⟨rc, file⟩, h_pwrite, h_eq⟩ := Option.map_eq_some_iff.mp h_act
  obtain ⟨h_done, rfl⟩ := Prod.mk.inj h_eq
  -- `write` returns true for a `pwrite` of all the bytes only
  obtain rfl := eq_of_beq (FileWork.done.inj h_done)
  exact eq_store_of_pwrite h_pwrite

/-- A hole that has been punched. -/
theorem turn_punchHole (h : (p.turn (.punchHole blockNr nBlocks) (.turn i) d).1 = .done true) :
    (p.turn (.punchHole blockNr nBlocks) (.turn i) d).2.contents =
      d.contents.clear (p.offset blockNr) (nBlocks.toNat * p.blockSize) := by
  have h_act := act_turn (p := p) (.punchHole blockNr nBlocks) i d
  rw [h] at h_act
  simp only [act] at h_act
  split at h_act
  · cases h_act
  · split at h_act
    · exact (Prod.mk.inj (Option.some.inj h_act)).2.symm
    · cases h_act

/-- A read changes nothing, whatever becomes of it. -/
theorem turn_read :
    (p.turn (.read blockNr nBlocks) (.turn i) d).2.contents = d.contents := by
  have h_act := act_turn (p := p) (.read blockNr nBlocks) i d
  simp only [act] at h_act
  split at h_act
  · exact (Prod.mk.inj (Option.some.inj h_act)).2.symm
  · split at h_act
    · exact (Prod.mk.inj (Option.some.inj h_act)).2.symm
    · cases h_act

/-! ### A function -/

theorem performAll_cons (sec : FileSection) (secs : List FileSection) (d : FileDisk) :
    p.performAll (sec :: secs) d =
      if (p.turn sec (.turn 0) d).1 = .done true then
        p.performAll secs (p.turn sec (.turn 0) d).2
      else (false, (p.turn sec (.turn 0) d).2) := rfl

/-- One section. -/
theorem performAll_singleton (sec : FileSection) (d : FileDisk) :
    p.performAll [sec] d =
      (decide ((p.turn sec (.turn 0) d).1 = .done true), (p.turn sec (.turn 0) d).2) := by
  rw [performAll_cons]
  split
  · next h => rw [decide_eq_true h, performAll]
  · next h => rw [decide_eq_false h]

/-- **Trimming block by block**: the blocks that have been written are cleared.
By induction on the blocks; the first one that fails ends it. -/
theorem performAll_zeros {n k : ℕ} (h_range : (blockNr.toNat + n) * p.blockSize ≤ d.size)
    (h_turns : i + k ≤ n) :
    let secs := (List.range' i k).map fun j =>
      FileSection.write (blockNr + UInt64.ofNat j) 1 (List.replicate p.blockSize 0)
    (p.performAll secs d).2.size = d.size ∧ (d.calls = [] → (p.performAll secs d).1 = true) ∧
      ((p.performAll secs d).1 = true → (p.performAll secs d).2.contents =
        d.contents.clear (blockNr.toNat * p.blockSize + i * p.blockSize) (k * p.blockSize)) := by
  induction k generalizing i d with
  | zero =>
    refine ⟨rfl, fun _ => rfl, fun _ => ?_⟩
    rw [Nat.zero_mul, Medium.clear_eq_store, List.replicate_zero, Medium.store_nil]
    rfl
  | succ k ih =>
    have h_lt : (blockNr.toNat + n) * p.blockSize < 2 ^ 64 :=
      (h_range.trans_lt d.size_lt).trans (by norm_num)
    have h_off : p.offset (blockNr + UInt64.ofNat i) =
        blockNr.toNat * p.blockSize + i * p.blockSize :=
      toNat_offset h_lt p.blockSize_pos (by omega)
    have h_one : (1 : UInt32).toNat * p.blockSize = p.blockSize := Nat.one_mul _
    have h_inside : p.offset (blockNr + UInt64.ofNat i) + (1 : UInt32).toNat * p.blockSize ≤
        d.size := by
      rw [h_off, h_one, ← Nat.add_mul, ← Nat.succ_mul]
      exact (Nat.mul_le_mul_right _ (by omega)).trans h_range
    have h_size : (p.turn (.write (blockNr + UInt64.ofNat i) 1 (List.replicate p.blockSize 0))
        (.turn 0) d).2.size = d.size := turn_size fun _ => h_inside
    dsimp only
    rw [List.range'_succ, List.map_cons, performAll_cons]
    split
    · next h_done =>
      obtain ⟨h_rest, h_works, h_contents⟩ :=
        ih (i := i + 1) (by rw [h_size]; exact h_range) (by omega)
      refine ⟨h_rest.trans h_size, fun h_calls => h_works (turn_calls h_calls), fun h_all => ?_⟩
      -- the block of this turn, and those behind it
      have h_behind : blockNr.toNat * p.blockSize + (i + 1) * p.blockSize =
          blockNr.toNat * p.blockSize + i * p.blockSize + p.blockSize := by
        rw [Nat.succ_mul, Nat.add_assoc]
      rw [h_contents h_all, turn_write h_done, h_off, h_one,
        List.take_of_length_le List.length_replicate.le, ← Medium.clear_eq_store, h_behind,
        Medium.clear_clear, Nat.succ_mul, Nat.add_comm p.blockSize]
    · next h_failed =>
      -- the loop ends with the first write that fails, which is none if the system does its part
      refine ⟨h_size, fun h_calls => absurd ?_ h_failed, fun h_all => absurd h_all (by simp)⟩
      exact turn_of_calls h_calls h_inside (by simp)

/-! ### `cmpwrite` -/

section

variable {dataWrite dataCompare : Bytes}

/-- Its system calls stay inside the range, the ones that read a block as well
as the one that writes them all. -/
theorem sysCall_cmpwrite (h_range : (blockNr.toNat + nBlocks.toNat) * p.blockSize ≤ d.size)
    (i : ℕ) :
    (p.sysCall (.cmpwrite blockNr nBlocks dataWrite dataCompare) (.turn i)).off +
      (p.sysCall (.cmpwrite blockNr nBlocks dataWrite dataCompare) (.turn i)).nBytes ≤ d.size := by
  have h_lt : (blockNr.toNat + nBlocks.toNat) * p.blockSize < 2 ^ 63 := h_range.trans_lt d.size_lt
  rw [sysCall]
  split
  · next h_turn =>
    -- a read of the block `i` of the range
    have h_off : p.offset (blockNr + UInt64.ofNat i) =
        blockNr.toNat * p.blockSize + i * p.blockSize :=
      toNat_offset (h_lt.trans (by norm_num)) p.blockSize_pos h_turn.le
    dsimp only
    rw [h_off, ← Nat.add_mul, ← Nat.succ_mul]
    exact (Nat.mul_le_mul_right _ (by omega)).trans h_range
  · -- the write of all of it
    have h_off : p.offset blockNr = blockNr.toNat * p.blockSize :=
      Addressable.offset_eq (r := (blockNr, nBlocks)) h_lt
    dsimp only
    rw [h_off, ← Nat.add_mul]
    exact h_range

/-- The work is that of a thread that is alone, and the file keeps its size. If
the system does all it is asked for, nothing goes wrong. -/
theorem alone_perform (dataWrite dataCompare : Bytes)
    (h_range : (blockNr.toNat + nBlocks.toNat) * p.blockSize ≤ d.size)
    {clean : Prop} (h_clean : clean → d.calls = []) (n : ℕ) (w : FileWork) :
    let res := p.perform (.cmpwrite blockNr nBlocks dataWrite dataCompare) n w d
    Alone p.program (.cmpwrite blockNr nBlocks dataWrite dataCompare)
        (fun rc w => clean → p.NoError nBlocks rc w) w d.contents res.1 res.2.contents ∧
      res.2.size = d.size := by
  induction n generalizing w d with
  | zero => exact ⟨.refl _ _, rfl⟩
  | succ n ih =>
    cases w with
    | done ok => exact ⟨.refl _ _, rfl⟩
    | compared result => exact ⟨.refl _ _, rfl⟩
    | turn i =>
      have h_size : (p.turn (.cmpwrite blockNr nBlocks dataWrite dataCompare) (.turn i) d).2.size =
          d.size := turn_size fun _ => sysCall_cmpwrite h_range i
      obtain ⟨h_rest, h_end⟩ := ih (by rw [h_size]; exact h_range)
        (fun h => turn_calls (h_clean h)) _
      have h_act := act_turn (p := p) (.cmpwrite blockNr nBlocks dataWrite dataCompare) i d
      refine ⟨Alone.act (P := p.program) (fun h => ?_) h_act h_rest, h_end.trans h_size⟩
      -- a call that moves everything is the one `NoError` allows
      rw [FileDisk.result_of_calls (h_clean h) (sysCall_cmpwrite h_range i)]
      unfold NoError sysCall
      dsimp only
      split <;> rfl

/-- A turn is the last one, or it is followed by the next. Which of them depends
on how the system call ends. -/
theorem turn_cmpwrite (i : ℕ) (d : FileDisk) :
    (∃ result, (p.turn (.cmpwrite blockNr nBlocks dataWrite dataCompare) (.turn i) d).1 =
        .compared result) ∨
      i < nBlocks.toNat ∧
        (p.turn (.cmpwrite blockNr nBlocks dataWrite dataCompare) (.turn i) d).1 =
          .turn (i + 1) := by
  have h_act := act_turn (p := p) (.cmpwrite blockNr nBlocks dataWrite dataCompare) i d
  simp only [act] at h_act
  -- the block equals, it does not, or it could not be read
  split at h_act
  · next h_turn =>
    split at h_act
    · split at h_act
      · exact .inr ⟨h_turn, (Prod.mk.inj (Option.some.inj h_act)).1.symm⟩
      · exact .inl ⟨_, (Prod.mk.inj (Option.some.inj h_act)).1.symm⟩
    · exact .inl ⟨_, (Prod.mk.inj (Option.some.inj h_act)).1.symm⟩
  · -- all blocks have been compared, so this turn writes
    obtain ⟨res, -, h_eq⟩ := Option.map_eq_some_iff.mp h_act
    exact .inl ⟨_, (Prod.mk.inj h_eq).1.symm⟩

/-- As many system calls as there are blocks, and one more, are enough. By
induction on the blocks that are left. -/
theorem perform_cmpwrite {k : ℕ} (h_left : i + k = nBlocks.toNat) (d : FileDisk) :
    ∃ result, (p.perform (.cmpwrite blockNr nBlocks dataWrite dataCompare) (k + 1) (.turn i) d).1 =
      .compared result := by
  induction k generalizing i d with
  -- with no block left the turn is the last one
  | zero =>
    rcases turn_cmpwrite (p := p) i d with h_last | ⟨h_turn, -⟩
    · exact h_last
    · omega
  | succ k ih =>
    change ∃ result, (p.perform _ (k + 1) (p.turn _ (.turn i) d).1 (p.turn _ (.turn i) d).2).1 = _
    rcases turn_cmpwrite (p := p) i d with ⟨result, h_last⟩ | ⟨-, h_next⟩
    · rw [h_last]
      exact ⟨result, rfl⟩
    · rw [h_next]
      exact ih (by omega) _

end

/-! ### The contracts -/

theorem size_of_inRange (h : p.backendFile.InRange d blockNr nBlocks) :
    (blockNr.toNat + nBlocks.toNat) * p.blockSize ≤ d.size := by
  have h_size : (UInt64.ofNat (d.size / p.blockSize)).toNat = d.size / p.blockSize :=
    Nat.mod_eq_of_lt ((Nat.div_le_self _ _).trans_lt (d.size_lt.trans (by norm_num)))
  have h_le : blockNr.toNat + nBlocks.toNat ≤ d.size / p.blockSize := by
    rw [← h_size]
    exact h
  exact (Nat.mul_le_mul_right _ h_le).trans (Nat.div_mul_le_self _ _)

theorem addressable_of_inRange (h : p.backendFile.InRange d blockNr nBlocks) :
    p.Addressable (blockNr, nBlocks) := (size_of_inRange h).trans_lt d.size_lt

/-- What a call that asks for the whole range needs for the file to keep its
size. -/
theorem inside_of_inRange (h : p.backendFile.InRange d blockNr nBlocks) :
    p.offset blockNr + nBlocks.toNat * p.blockSize ≤ d.size := by
  have h_off : p.offset blockNr = blockNr.toNat * p.blockSize :=
    (addressable_of_inRange h).offset_eq
  rw [h_off, ← Nat.add_mul]
  exact size_of_inRange h

/-- `trim`, by a hole or block by block. When it succeeds the range is zero, and
when every system call works it does succeed. -/
theorem backendFile_trim (h : p.backendFile.InRange d blockNr nBlocks) :
    (p.backendFile.trim d blockNr nBlocks).2.size = d.size ∧
      (d.calls = [] → (p.backendFile.trim d blockNr nBlocks).1 = true) ∧
      ((p.backendFile.trim d blockNr nBlocks).1 = true →
        (p.backendFile.trim d blockNr nBlocks).2.contents =
          d.contents.clear (blockNr.toNat * p.blockSize) (nBlocks.toNat * p.blockSize)) := by
  have h_off : p.offset blockNr = blockNr.toNat * p.blockSize :=
    (addressable_of_inRange h).offset_eq
  have h_trim : p.backendFile.trim d blockNr nBlocks =
      p.performAll (p.sections (.trim blockNr nBlocks)) d := rfl
  rw [h_trim, sections]
  split
  · -- a hole in the file: one section with one system call
    rw [performAll_singleton]
    refine ⟨turn_size fun _ => inside_of_inRange h, fun h_calls => decide_eq_true ?_,
      fun h_done => ?_⟩
    · exact turn_of_calls h_calls (inside_of_inRange h) (by simp)
    · rw [turn_punchHole (of_decide_eq_true h_done), h_off]
  · -- otherwise one block of zeros after the other
    have h_zeros := performAll_zeros (size_of_inRange h) (i := 0) (k := nBlocks.toNat) (by omega)
    dsimp only at h_zeros
    rw [Nat.zero_mul, Nat.add_zero, ← List.range_eq_range'] at h_zeros
    exact h_zeros

theorem backendFile_stores (p : FilePlatform) : p.backendFile.Stores FileDisk.contents where
  write_ok d blockNr n data h_range _ h_ok := by
    have h_off : p.offset blockNr = blockNr.toNat * p.blockSize :=
      (addressable_of_inRange h_range).offset_eq
    change (p.performAll [_] d).1 = true at h_ok
    change (p.performAll [_] d).2.contents = _
    rw [performAll_singleton] at h_ok ⊢
    rw [turn_write (of_decide_eq_true h_ok), h_off]
    rfl
  trim_ok d blockNr n h_range h_ok := (backendFile_trim h_range).2.2 h_ok
  read_ok d blockNr n buf h_range h_ok := by
    have h_off : p.offset blockNr = blockNr.toNat * p.blockSize :=
      (addressable_of_inRange h_range).offset_eq
    simp only [backendFile] at h_ok ⊢
    split at h_ok
    · rw [← Option.some.inj h_ok, h_off]
    · cases h_ok
  read_medium d blockNr n := by
    change (p.performAll [_] d).2.contents = _
    rw [performAll_singleton]
    exact turn_read
  sync_medium _ := rfl
  -- the size of the device is that of the file, and inside of it no call makes the file grow
  write_size d blockNr n data h_range := by
    refine congrArg (fun size => UInt64.ofNat (size / p.blockSize)) ?_
    change (p.performAll [_] d).2.size = _
    rw [performAll_singleton]
    exact turn_size fun _ => inside_of_inRange h_range
  trim_size d blockNr n h_range :=
    congrArg (fun size => UInt64.ofNat (size / p.blockSize)) (backendFile_trim h_range).1
  read_size d blockNr n := by
    refine congrArg (fun size => UInt64.ofNat (size / p.blockSize)) ?_
    change (p.performAll [_] d).2.size = _
    rw [performAll_singleton]
    exact turn_size fun h_writes => absurd h_writes (by simp [sysCall])
  sync_size _ := rfl

/-- How `cmpwrite` ends, from what holds at every step: the invariant of the
threaded program, in the phase in which the work is done. -/
theorem backendFile_cmpwrite (h_range : p.backendFile.InRange d blockNr nBlocks)
    {dataWrite dataCompare : Bytes} (h_write : nBlocks.toNat * p.blockSize ≤ dataWrite.length)
    (h_compare : nBlocks.toNat * p.blockSize ≤ dataCompare.length) :
    CmpwriteInv p blockNr nBlocks (dataWrite.take (nBlocks.toNat * p.blockSize))
      (dataCompare.take (nBlocks.toNat * p.blockSize)) d.contents (d.calls = [])
      (.compared (p.backendFile.cmpwrite d blockNr nBlocks dataWrite dataCompare).1)
      (p.backendFile.cmpwrite d blockNr nBlocks dataWrite dataCompare).2.contents := by
  -- nobody else is at work, so the steps of the function are all there is
  have h_alone := (alone_perform (dataWrite.take (nBlocks.toNat * p.blockSize))
    (dataCompare.take (nBlocks.toNat * p.blockSize)) (size_of_inRange h_range) id
    (nBlocks.toNat + 1) (.turn 0)).1
  obtain ⟨result, h_result⟩ : ∃ result, (p.perform (.cmpwrite blockNr nBlocks
      (dataWrite.take (nBlocks.toNat * p.blockSize))
      (dataCompare.take (nBlocks.toNat * p.blockSize))) (nBlocks.toNat + 1) (.turn 0) d).1 =
        .compared result := perform_cmpwrite (Nat.zero_add _) d
  simp only [backendFile]
  rw [h_result] at h_alone ⊢
  exact cmpwriteInv_of_ends (addressable_of_inRange h_range) (List.length_take_of_le h_write)
    (List.length_take_of_le h_compare) h_alone

/-- All blocks match, of as much of the buffer as there are blocks. -/
theorem matches_take_iff {m : Medium UInt8} {off : ℕ} {dataCompare : Bytes} :
    IscsiTarget.Matches m off p.blockSize (dataCompare.take (nBlocks.toNat * p.blockSize))
        nBlocks.toNat ↔
      m.slice off (nBlocks.toNat * p.blockSize) =
        dataCompare.take (nBlocks.toNat * p.blockSize) := by
  unfold IscsiTarget.Matches
  rw [List.take_take, min_self]

theorem backendFile_swaps (p : FilePlatform) : p.backendFile.Swaps FileDisk.contents where
  ok d blockNr n dataWrite dataCompare h_range _ h_write h_compare h_ok := by
    have h_inv := backendFile_cmpwrite h_range h_write h_compare
    rw [h_ok] at h_inv
    exact ⟨matches_take_iff.mp h_inv.1, h_inv.2⟩
  mismatch d blockNr n dataWrite dataCompare h_range _ h_write h_compare h_mismatch := by
    have h_inv := backendFile_cmpwrite h_range h_write h_compare
    rw [h_mismatch] at h_inv
    exact ⟨mt matches_take_iff.mpr h_inv.2, h_inv.1⟩
  size d blockNr n dataWrite dataCompare h_range :=
    congrArg (fun size => UInt64.ofNat (size / p.blockSize))
      (alone_perform _ _ (size_of_inRange h_range) id (n.toNat + 1) (.turn 0)).2

/-- What a backend does inside the device when nothing goes wrong below it: a
write, a trim and a read succeed, and a compare-and-write finds out whether the
blocks agree. -/
structure Works (p : FilePlatform) (d : FileDisk) (blockNr : UInt64) (n : UInt32) : Prop where
  write : ∀ data, (p.backendFile.write d blockNr n data).1 = true
  trim : (p.backendFile.trim d blockNr n).1 = true
  read : (p.backendFile.read d blockNr n).1 =
    some (d.contents.slice (blockNr.toNat * p.blockSize) (n.toNat * p.blockSize))
  cmpwrite : ∀ dataWrite dataCompare : Bytes, n.toNat * p.blockSize ≤ dataWrite.length →
    n.toNat * p.blockSize ≤ dataCompare.length →
    (p.backendFile.cmpwrite d blockNr n dataWrite dataCompare).1 =
      if d.contents.slice (blockNr.toNat * p.blockSize) (n.toNat * p.blockSize) =
        dataCompare.take (n.toNat * p.blockSize) then .ok else .mismatch

theorem backendFile_works (h_calls : d.calls = [])
    (h_range : p.backendFile.InRange d blockNr nBlocks) : Works p d blockNr nBlocks where
  write data := by
    change (p.performAll [_] d).1 = true
    rw [performAll_singleton]
    exact decide_eq_true (turn_of_calls h_calls (inside_of_inRange h_range) (by simp))
  trim := (backendFile_trim h_range).2.1 h_calls
  read := by
    have h_off : p.offset blockNr = blockNr.toNat * p.blockSize :=
      (addressable_of_inRange h_range).offset_eq
    have h_done : (p.turn (.read blockNr nBlocks) (.turn 0) d).1 = .done true :=
      turn_of_calls h_calls (inside_of_inRange h_range) (by simp)
    change (if (p.performAll [_] d).1 = true then _ else _) = _
    rw [performAll_singleton, if_pos (decide_eq_true h_done), h_off]
  cmpwrite dataWrite dataCompare h_write h_compare := by
    have h_inv := backendFile_cmpwrite h_range h_write h_compare
    cases h_result : (p.backendFile.cmpwrite d blockNr nBlocks dataWrite dataCompare).1 <;>
      rw [h_result] at h_inv
    case ok => rw [if_pos (matches_take_iff.mp h_inv.1)]
    case mismatch => rw [if_neg (mt matches_take_iff.mpr h_inv.2)]
    -- an error needs a call that failed, and here none does
    case readError => exact absurd h_calls h_inv
    case writeError => exact absurd h_calls h_inv

/-- **The file backend is a disk.** Whatever its system calls return, it keeps
the contracts; and when they move all they are asked for, everything inside the
file works. -/
theorem backendFile_keeps (p : FilePlatform) :
    p.backendFile.Stores FileDisk.contents ∧ p.backendFile.Swaps FileDisk.contents ∧
      ∀ d blockNr n, d.calls = [] → p.backendFile.InRange d blockNr n → Works p d blockNr n :=
  ⟨backendFile_stores p, backendFile_swaps p, fun _ _ _ => backendFile_works⟩

end FilePlatform

end IscsiTarget
