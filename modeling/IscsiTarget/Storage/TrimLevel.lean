import IscsiTarget.Lib.Run
import IscsiTarget.Io
import IscsiTarget.Model.Sample

/-!
# Trim levels

`trim_level` 0 turns a trim into writes of zeros, and 2 turns a write of zeros into a trim.
What a sequence of writes and trims does to the medium is the same for all of them:
`StoreOp.update` says what it is without looking at the trim level, `StoreOp.medium_run` that
one call does just that, and `Machine.run_induction` carries it over sequences.
-/

namespace IscsiTarget

variable {β : Type} {T : Target β} {medium : β → Medium UInt8}

/-! ### Writes and trims -/

/-- A call that changes the medium. -/
inductive StoreOp
  | write (blockNr : UInt64) (n : UInt32) (data : Bytes)
  | trim (blockNr : UInt64) (n : UInt32)

namespace StoreOp

/-- The block range of a call. -/
def range : StoreOp → UInt64 × UInt32
  | write blockNr n _ => (blockNr, n)
  | trim blockNr n => (blockNr, n)

/-- The call, as `scsi` makes it. -/
def call (T : Target β) (s : Scsi β) : StoreOp → RwResult × Scsi β
  | write blockNr n data => s.write T blockNr n data
  | trim blockNr n => s.trim T blockNr n

/-- A call that has to succeed. -/
def step (T : Target β) (s : Scsi β) (o : StoreOp) : Except RwResult (Scsi β) :=
  match o.call T s with
  | (.ok, s') => .ok s'
  | (rc, _) => .error rc

/-- What the call is meant to store, and where. -/
def update (bs : ℕ) : StoreOp → ℕ × Bytes
  | write blockNr n data => (blockNr.toNat * bs, data.take (n.toNat * bs))
  | trim blockNr n => (blockNr.toNat * bs, List.replicate (n.toNat * bs) 0)

/-- The range lies inside the device, and the data of a write is all there.
Outside of it a backend may do anything. -/
def Fits (T : Target β) (disk : β) (o : StoreOp) : Prop :=
  T.backend.InRange disk o.range.1 o.range.2 ∧
    match o with
    | write _ n data => n.toNat * T.blockSize ≤ data.length
    | trim _ _ => True

/-- The call reaches block `b`. -/
def Covers (o : StoreOp) (b : ℕ) : Prop :=
  o.range.1.toNat ≤ b ∧ b < o.range.1.toNat + o.range.2.toNat

/-- What block `b` reads as after the call, if the call reaches it. -/
def block (bs : ℕ) (b : ℕ) : StoreOp → Bytes
  | write blockNr _ data => (data.drop ((b - blockNr.toNat) * bs)).take bs
  | trim _ _ => List.replicate bs 0

end StoreOp

/-! ### One call -/

namespace StoreOp

/-- **A call that succeeds does what it is meant to**, at every trim level, and
the device keeps its size. -/
theorem medium_step (hB : T.backend.Stores medium) {s s' : Scsi β} {o : StoreOp}
    (hfits : o.Fits T s.disk) (h : o.step T s = .ok s') :
    medium s'.disk = (medium s.disk).store (o.update T.blockSize).1 (o.update T.blockSize).2 ∧
      T.backend.getSizeInBlocks s'.disk = T.backend.getSizeInBlocks s.disk := by
  have h_call : o.call T s = (.ok, s') := by
    unfold step at h
    split at h
    · next h_eq => rw [h_eq, Except.ok.inj h]
    · exact nomatch h
  have h_ok : (o.call T s).1 = .ok := by rw [h_call]
  have h_disk : s'.disk = (o.call T s).2.disk := by rw [h_call]
  rw [h_disk]
  -- the contract of the backend speaks of each call; a trim stores zeros
  cases o with
  | write blockNr n data => exact Scsi.medium_write hB hfits.1 hfits.2 h_ok
  | trim blockNr n =>
    obtain ⟨h_medium, h_size⟩ := Scsi.medium_trim hB hfits.1 h_ok
    exact ⟨h_medium.trans (Medium.clear_eq_store _ _ _), h_size⟩

/-- A device that keeps its size keeps its ranges. -/
theorem Fits.of_size {o : StoreOp} {d d' : β} (h : o.Fits T d)
    (hsize : T.backend.getSizeInBlocks d' = T.backend.getSizeInBlocks d) : o.Fits T d' := by
  refine ⟨?_, h.2⟩
  rw [Backend.InRange, hsize]
  exact h.1

/-! ### Sequences of calls -/

/-- **What a sequence of calls does to the medium.** -/
theorem medium_run (hB : T.backend.Stores medium) {s s' : Scsi β} {ops : List StoreOp}
    (hfits : ∀ o ∈ ops, o.Fits T s.disk) (h : Machine.run (step T) s ops = .ok s') :
    medium s'.disk = (medium s.disk).storeAll (ops.map (update T.blockSize)) := by
  induction ops generalizing s with
  | nil =>
    obtain rfl : s = s' := Except.ok.inj h
    rfl
  | cons o ops ih =>
    obtain ⟨s₁, h_first, h_rest⟩ := Machine.run_cons_eq_ok.mp h
    obtain ⟨h_medium, h_size⟩ := medium_step hB (hfits o List.mem_cons_self) h_first
    rw [ih (fun o' ho' => (hfits o' (List.mem_cons_of_mem o ho')).of_size h_size) h_rest, h_medium]
    rfl

/-- A block that the call does not reach lies in front of what it stores, or
behind it. -/
theorem update_notMem {bs b i : ℕ} {o : StoreOp} (h : ¬ o.Covers b) (hi : i < bs) :
    b * bs + i < (o.update bs).1 ∨
      (o.update bs).1 + (o.update bs).2.length ≤ b * bs + i := by
  have h_len : (o.update bs).1 + (o.update bs).2.length ≤
      (o.range.1.toNat + o.range.2.toNat) * bs := by
    rw [Nat.add_mul]
    cases o with
    | write blockNr n data => exact Nat.add_le_add_left (List.length_take_le _ _) _
    | trim blockNr n => exact Nat.add_le_add_left (List.length_replicate ..).le _
  have h_off : (o.update bs).1 = o.range.1.toNat * bs := by cases o <;> rfl
  rw [Covers, not_and_or, not_le, not_lt] at h
  rcases h with h | h
  · have h_mul := Nat.mul_le_mul_right bs (Nat.succ_le_of_lt h)
    rw [Nat.succ_mul] at h_mul
    omega
  · have h_mul := Nat.mul_le_mul_right bs h
    omega

/-- A byte of a block that the call reaches is a byte of what the call stores,
at the place of the block in its range. -/
theorem getElem?_block {disk : β} {o : StoreOp} (hfits : o.Fits T disk) {b i : ℕ}
    (hcov : o.Covers b) (hi : i < T.blockSize) :
    ∃ j, ∃ hj : j < (o.update T.blockSize).2.length,
      b * T.blockSize + i = (o.update T.blockSize).1 + j ∧
        (o.block T.blockSize b)[i]? = some (o.update T.blockSize).2[j] := by
  obtain ⟨h_le, h_lt⟩ := hcov
  -- the place in the buffer
  have h_place : b * T.blockSize + i = o.range.1.toNat * T.blockSize +
      ((b - o.range.1.toNat) * T.blockSize + i) := by
    have h_b : b = o.range.1.toNat + (b - o.range.1.toNat) := by omega
    conv_lhs => rw [h_b, Nat.add_mul]
    omega
  have h_in : (b - o.range.1.toNat) * T.blockSize + i < o.range.2.toNat * T.blockSize := by
    have h_mul : (b - o.range.1.toNat + 1) * T.blockSize ≤ o.range.2.toNat * T.blockSize :=
      Nat.mul_le_mul_right _ (by omega)
    rw [Nat.succ_mul] at h_mul
    omega
  cases o with
  | write blockNr n data =>
    have h_data : n.toNat * T.blockSize ≤ data.length := hfits.2
    dsimp only [range] at h_place h_in
    refine ⟨(b - blockNr.toNat) * T.blockSize + i, ?_, h_place, ?_⟩
    · rw [update, List.length_take]
      omega
    · have h_lt : (b - blockNr.toNat) * T.blockSize + i < data.length := by omega
      rw [block, List.getElem?_take_of_lt hi, List.getElem?_drop,
        List.getElem?_eq_getElem h_lt]
      exact congrArg some List.getElem_take.symm
  | trim blockNr n =>
    dsimp only [range] at h_place h_in
    refine ⟨(b - blockNr.toNat) * T.blockSize + i, ?_, h_place, ?_⟩
    · rw [update, List.length_replicate]
      exact h_in
    · rw [block, List.getElem?_replicate_of_lt hi]
      exact congrArg some (List.getElem_replicate ..).symm

/-- **The last call that reaches a block decides what it reads as.** What came
before is overwritten, and what came after does not reach it. -/
theorem slice_of_last {disk : β} {m : Medium UInt8} {ops before after : List StoreOp} {o : StoreOp}
    (hops : ops = before ++ o :: after) (hfits : o.Fits T disk) {b : ℕ} (hcov : o.Covers b)
    (hlast : ∀ o' ∈ after, ¬ o'.Covers b) :
    (m.storeAll (ops.map (update T.blockSize))).slice (b * T.blockSize) T.blockSize =
      o.block T.blockSize b := by
  -- byte by byte: the last call holds it, and none after it reaches it
  apply List.ext_getElem?
  intro i
  by_cases hi : i < T.blockSize
  · obtain ⟨j, h_j, h_place, h_byte⟩ := getElem?_block hfits hcov hi
    rw [h_byte, List.getElem?_eq_getElem (by rw [Medium.length_slice]; exact hi),
      Medium.getElem_slice, hops, List.map_append, List.map_cons]
    rw [h_place, Medium.storeAll_apply_of_last h_j]
    intro p hp
    obtain ⟨o', h_o', rfl⟩ := List.mem_map.mp hp
    rw [← h_place]
    exact update_notMem (hlast o' h_o') hi
  · have h_len : (o.block T.blockSize b).length ≤ T.blockSize := by
      cases o with
      | write blockNr n data => exact List.length_take_le _ _
      | trim blockNr n => exact (List.length_replicate ..).le
    rw [List.getElem?_eq_none (by rw [Medium.length_slice]; omega),
      List.getElem?_eq_none (by omega)]

end StoreOp

/-! ### Different trim levels -/

/-- The same target with another trim level. -/
def Target.atTrimLevel (T : Target β) (level : ℤ) : Target β := { T with trimLevel := level }

/-- **The trim level makes no difference to what is stored**: a written block
holds what was written to it last, a trimmed block reads as zeros. -/
theorem trimLevel_irrelevant (T : Target β) (hB : T.backend.Stores medium) {s : Scsi β}
    {ops : List StoreOp} (hfits : ∀ o ∈ ops, o.Fits T s.disk) {level level' : ℤ} {s₁ s₂ : Scsi β}
    (h₁ : Machine.run (StoreOp.step (T.atTrimLevel level)) s ops = .ok s₁)
    (h₂ : Machine.run (StoreOp.step (T.atTrimLevel level')) s ops = .ok s₂) :
    medium s₁.disk = medium s₂.disk ∧
      ∀ before o after, ops = before ++ o :: after → ∀ b, o.Covers b →
        (∀ o' ∈ after, ¬ o'.Covers b) →
        (medium s₁.disk).slice (b * T.blockSize) T.blockSize = o.block T.blockSize b := by
  have h_one := StoreOp.medium_run (T := T.atTrimLevel level) hB hfits h₁
  have h_two := StoreOp.medium_run (T := T.atTrimLevel level') hB hfits h₂
  refine ⟨h_one.trans h_two.symm, ?_⟩
  intro before o after hops b hcov hlast
  rw [h_one]
  have h_mem : o ∈ ops := by
    rw [hops]
    exact List.mem_append_right _ List.mem_cons_self
  exact StoreOp.slice_of_last hops (hfits o h_mem) hcov hlast

/-- A write, a trim of a part of it and a write of zeros. -/
def Sample.storeOps : List StoreOp :=
  [.write 1 3 (block 7 ++ block 8 ++ block 9), .trim 2 1, .write 3 1 (block 0)]

open Sample in
/-- At levels 0 and 2, block 2 was trimmed last. It reads as zeros on both
devices, although they have been asked for different things. -/
theorem trimLevel_irrelevant_mixed : ∃ s₁ s₂ : Scsi Ram,
    Machine.run (StoreOp.step ((target 8).atTrimLevel 0)) { disk := ram [] } storeOps = .ok s₁ ∧
    Machine.run (StoreOp.step ((target 8).atTrimLevel 2)) { disk := ram [] } storeOps = .ok s₂ ∧
    s₁.disk.contents = s₂.disk.contents ∧ s₁.disk.contents.slice 32 16 = block 0 := by
  have h_eval (level : ℤ) (h : level = 0 ∨ level = 2) :
      (Machine.run (StoreOp.step ((target 8).atTrimLevel level)) { disk := ram [] }
        storeOps).toOption.any (fun _ => decide True) = true := by
    rcases h with rfl | rfl <;> decide +kernel
  obtain ⟨s₁, h₁, -⟩ := Machine.exists_ok_of_any (h_eval 0 (.inl rfl))
  obtain ⟨s₂, h₂, -⟩ := Machine.exists_ok_of_any (h_eval 2 (.inr rfl))
  have h_fits : ∀ o ∈ storeOps, o.Fits (target 8) (ram []) := by
    simp only [storeOps, List.forall_mem_cons, List.not_mem_nil, IsEmpty.forall_iff, implies_true,
      and_true]
    have h_in (o : StoreOp) (h : o.range.1.toNat + o.range.2.toNat ≤ 8) :
        (target 8).backend.InRange (ram []) o.range.1 o.range.2 := h
    exact ⟨⟨h_in _ (by decide), by decide⟩, ⟨h_in _ (by decide), trivial⟩,
      ⟨h_in _ (by decide), by decide⟩⟩
  obtain ⟨h_same, h_last⟩ := trimLevel_irrelevant (target 8)
    (ramBackend_stores 16 (by decide) (by decide) 8) h_fits h₁ h₂
  refine ⟨s₁, s₂, h₁, h₂, h_same, ?_⟩
  exact h_last [.write 1 3 (block 7 ++ block 8 ++ block 9)] (.trim 2 1) [.write 3 1 (block 0)] rfl 2
    ⟨by decide, by decide⟩ fun o' ho' => by
      obtain rfl := List.mem_singleton.mp ho'
      exact fun h => absurd h.1 (by decide)

end IscsiTarget
