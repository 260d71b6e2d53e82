import IscsiTarget.Range

/-!
# What the functions of `scsi` do to the trace and to the medium

Every statement about WRITE goes through this file. A call that is not stopped by
a reservation makes one backend call and notes it (`write_of_unlocked`,
`sync_of_unlocked`); nothing else of the state moves, which `Does` says once for
all of them: the trace gets longer by the given events, the reservation stays.

Two readings of the trace are used later:

* `Event.Stores bs a v`: the event is a successful backend call that puts the
  byte `v` at address `a`. No contract is needed for it.
* `Backend.Stores` (the contract) turns the same calls into an effect on the
  medium: `write_medium`.
-/

namespace IscsiTarget

/-! ### Addresses -/

/-- Addressing the block `j` further on, below the end of the 64-bit addresses. -/
theorem toNat_add_ofNat {lba : UInt64} {j : ℕ} (h : lba.toNat + j < 2 ^ 64) :
    (lba + UInt64.ofNat j).toNat = lba.toNat + j := by
  rw [UInt64.toNat_add, UInt64.toNat_ofNat']
  omega

theorem toNat_ofNat_32 {j : ℕ} (h : j < 2 ^ 32) : (UInt32.ofNat j).toNat = j := by
  rw [UInt32.toNat_ofNat']
  omega

/-! ### Reading the trace -/

namespace Event

/-- The event is a successful backend call that puts `v` at the address `a`: a
write whose data has `v` there, or a trim, which leaves zeros. What an
unsuccessful call has done is not known, and no such event counts. -/
def Stores (bs a : ℕ) (v : UInt8) : Event → Prop
  | .io (.write blockNr n data) true =>
    blockNr.toNat * bs ≤ a ∧ a < (blockNr.toNat + n.toNat) * bs ∧
      data[a - blockNr.toNat * bs]? = some v
  | .io (.trim blockNr n) true =>
    blockNr.toNat * bs ≤ a ∧ a < (blockNr.toNat + n.toNat) * bs ∧ v = 0
  | _ => False

/-- The event is a write or a trim, successful or not. -/
def IsWrite : Event → Prop
  | .io (.write _ _ _) _ => True
  | .io (.trim _ _) _ => True
  | _ => False

/-- The event is a write or a trim that reaches the block `b`. -/
def Touches (b : ℕ) : Event → Prop
  | .io (.write blockNr n _) _ => blockNr.toNat ≤ b ∧ b < blockNr.toNat + n.toNat
  | .io (.trim blockNr n) _ => blockNr.toNat ≤ b ∧ b < blockNr.toNat + n.toNat
  | _ => False

/-- The event is a backend call that moves data. -/
def IsTransfer : Event → Prop
  | .io .sync _ => False
  | .io _ _ => True
  | _ => False

/-- The event is a backend call that failed. -/
def Failed : Event → Prop
  | .io _ ok => ok = false
  | _ => False

instance : DecidablePred IsWrite := fun e => by
  cases e with
  | io call ok => cases call <;> (simp only [IsWrite]; infer_instance)
  | received q => exact isFalse (by simp [IsWrite])
  | sent p ok => exact isFalse (by simp [IsWrite])

instance : DecidablePred Failed := fun e => by
  cases e <;> (simp only [Failed]; infer_instance)

end Event

namespace Scsi

variable {β : Type} (T : Target β) (s : Scsi β)

/-! ### Steps -/

/-- `s'` comes after `s`: the trace has got the events `evs`, the reservation is
what it was. Nothing is said about the medium, which the contract of the backend
adds. -/
structure Does (s s' : Scsi β) (evs : List Event) : Prop where
  history : s'.history = s.history ++ evs
  lockedBy : s'.lockedBy = s.lockedBy

variable {T s}

theorem Does.refl (s : Scsi β) : s.Does s [] := ⟨by simp, rfl⟩

theorem Does.trans {s₁ s₂ s₃ : Scsi β} {es fs : List Event} (h₁ : s₁.Does s₂ es)
    (h₂ : s₂.Does s₃ fs) : s₁.Does s₃ (es ++ fs) :=
  ⟨by rw [h₂.history, h₁.history, List.append_assoc], by rw [h₂.lockedBy, h₁.lockedBy]⟩

/-- Two states determine the events between them. -/
theorem Does.unique {s' : Scsi β} {es fs : List Event} (h₁ : s.Does s' es) (h₂ : s.Does s' fs) :
    es = fs :=
  List.append_cancel_left (h₁.history.symm.trans h₂.history)

theorem Does.lockingStatus {s' : Scsi β} {evs : List Event} (h : s.Does s' evs) :
    s'.lockingStatus T = s.lockingStatus T := by
  simp only [Scsi.lockingStatus, h.lockedBy]

theorem does_note (e : Event) : s.Does (s.note e) [e] := ⟨rfl, rfl⟩

@[simp] theorem note_disk (e : Event) : (s.note e).disk = s.disk := rfl

@[simp] theorem note_history (e : Event) : (s.note e).history = s.history ++ [e] := rfl

@[simp] theorem lockingStatus_note (e : Event) :
    (s.note e).lockingStatus T = s.lockingStatus T := rfl

theorem does_afterCall (call : IoCall) (r : Bool × β) :
    s.Does (s.afterCall call r).2 [.io call r.1] := ⟨rfl, rfl⟩

@[simp] theorem afterCall_disk (call : IoCall) (r : Bool × β) :
    (s.afterCall call r).2.disk = r.2 := rfl

/-- A call is answered with `ok` exactly when the backend says true. -/
theorem afterCall_eq_ok_iff (call : IoCall) (r : Bool × β) :
    (s.afterCall call r).1 = .ok ↔ r.1 = true := by
  unfold afterCall
  split <;> simp_all

/-! ### The calls -/

variable (T s)

/-- The backend call `write` makes. -/
def writeCall (blockNr : UInt64) (n : UInt32) (data : Bytes) : IoCall :=
  if T.trimLevel = 2 ∧ isZero T n data = true then .trim blockNr n else .write blockNr n data

/-- The result of the backend call `write` makes. -/
def writeBackend (disk : β) (blockNr : UInt64) (n : UInt32) (data : Bytes) : Bool × β :=
  if T.trimLevel = 2 ∧ isZero T n data = true then T.backend.trim disk blockNr n
  else T.backend.write disk blockNr n data

variable {T s}

theorem write_of_locked (h : s.lockingStatus T = .lockedOther) (blockNr : UInt64) (n : UInt32)
    (data : Bytes) : s.write T blockNr n data = (.failLocked, s) := by
  simp [write, h]

/-- A write that is not stopped makes one backend call, a trim when trim level 2
finds nothing but zeros. -/
theorem write_of_unlocked (h : s.lockingStatus T ≠ .lockedOther) (blockNr : UInt64) (n : UInt32)
    (data : Bytes) :
    s.write T blockNr n data =
      s.afterCall (writeCall T blockNr n data) (writeBackend T s.disk blockNr n data) := by
  unfold write writeCall writeBackend
  rw [if_pos h]
  split <;> rfl

theorem sync_of_locked (h : s.lockingStatus T = .lockedOther) : s.sync T = (.failLocked, s) := by
  simp [sync, h]

theorem sync_of_unlocked (h : s.lockingStatus T ≠ .lockedOther) :
    s.sync T = s.afterCall .sync (T.backend.sync s.disk) := by
  rw [sync, if_pos h]

theorem read_of_locked (h : s.lockingStatus T = .lockedOther) (blockNr : UInt64) (n : UInt32) :
    s.read T blockNr n = (.error .failLocked, s) := by
  simp [read, h]

/-- A sync that is not stopped makes one backend call. -/
theorem does_sync_of_unlocked (h : s.lockingStatus T ≠ .lockedOther) :
    s.Does (s.sync T).2 [.io .sync (T.backend.sync s.disk).1] := by
  rw [sync_of_unlocked h]
  exact does_afterCall _ _

/-- The comparison of the result of a sync with `false` holds when the sync
succeeds. -/
theorem eqFalse_sync_of_unlocked (h : s.lockingStatus T ≠ .lockedOther) :
    (s.sync T).1.eqFalse = (T.backend.sync s.disk).1 := by
  rw [sync_of_unlocked h]
  unfold afterCall
  cases (T.backend.sync s.disk).1 <;> rfl

/-- A sync leaves one call in the trace, or none if a reservation stops it. -/
theorem does_sync (s : Scsi β) :
    ∃ evs, s.Does (s.sync T).2 evs ∧ ∀ e ∈ evs, ∃ ok, e = .io .sync ok := by
  by_cases h : s.lockingStatus T = .lockedOther
  · rw [sync_of_locked h]
    exact ⟨[], .refl s, by simp⟩
  · refine ⟨_, does_sync_of_unlocked h, fun e he => ?_⟩
    obtain rfl := List.mem_singleton.mp he
    exact ⟨_, rfl⟩

/-- A read that is not stopped by a reservation. -/
theorem read_of_unlocked (h : s.lockingStatus T ≠ .lockedOther) (blockNr : UInt64) (n : UInt32) :
    s.read T blockNr n =
      (match (T.backend.read s.disk blockNr n).1 with
        | some buf => .ok buf
        | none => .error .failGeneral,
        (s.afterCall (.read blockNr n)
          ((T.backend.read s.disk blockNr n).1.isSome,
            (T.backend.read s.disk blockNr n).2)).2) := by
  unfold read afterCall
  rw [if_pos h]
  rcases hr : T.backend.read s.disk blockNr n with ⟨buf | _, disk⟩ <;> rfl

/-- A write that succeeds was not stopped by a reservation. -/
theorem unlocked_of_write_ok {blockNr : UInt64} {n : UInt32} {data : Bytes}
    (h : (s.write T blockNr n data).1 = .ok) : s.lockingStatus T ≠ .lockedOther := by
  intro hl
  rw [write_of_locked hl] at h
  exact absurd h (by simp)

/-- **A write that succeeds** makes one backend call, which succeeds. -/
theorem write_ok {blockNr : UInt64} {n : UInt32} {data : Bytes}
    (h : (s.write T blockNr n data).1 = .ok) :
    s.Does (s.write T blockNr n data).2 [.io (writeCall T blockNr n data) true] ∧
      (writeBackend T s.disk blockNr n data).1 = true ∧
      (s.write T blockNr n data).2.disk = (writeBackend T s.disk blockNr n data).2 := by
  have hl := unlocked_of_write_ok h
  rw [write_of_unlocked hl] at h ⊢
  rw [afterCall_eq_ok_iff] at h
  have h_does := does_afterCall (s := s) (writeCall T blockNr n data)
    (writeBackend T s.disk blockNr n data)
  rw [h] at h_does
  exact ⟨h_does, h, rfl⟩

/-- A write that fails although it was not stopped makes one backend call too. -/
theorem does_write_of_ne_ok {blockNr : UInt64} {n : UInt32} {data : Bytes}
    (hl : s.lockingStatus T ≠ .lockedOther) (h : (s.write T blockNr n data).1 ≠ .ok) :
    s.Does (s.write T blockNr n data).2 [.io (writeCall T blockNr n data) false] := by
  rw [write_of_unlocked hl] at h ⊢
  rw [ne_eq, afterCall_eq_ok_iff, Bool.not_eq_true] at h
  have h_does := does_afterCall (s := s) (writeCall T blockNr n data)
    (writeBackend T s.disk blockNr n data)
  rw [h] at h_does
  exact h_does

/-- **A read that succeeds** makes one backend call, which succeeds. What is
returned comes from that call, and so does the state of the backend. -/
theorem read_ok {blockNr : UInt64} {n : UInt32} {buf : Bytes} {s' : Scsi β}
    (h : s.read T blockNr n = (.ok buf, s')) :
    s.Does s' [.io (.read blockNr n) true] ∧ (T.backend.read s.disk blockNr n).1 = some buf ∧
      s'.disk = (T.backend.read s.disk blockNr n).2 := by
  by_cases hl : s.lockingStatus T = .lockedOther
  · -- a reservation stops it, and then there is no data
    rw [read_of_locked hl] at h
    exact absurd h (by simp)
  rw [read_of_unlocked hl] at h
  cases hr : (T.backend.read s.disk blockNr n).1 with
  | none => simp [hr] at h
  | some b =>
    simp only [hr, Prod.mk.injEq, Except.ok.injEq] at h
    obtain ⟨rfl, rfl⟩ := h
    exact ⟨does_afterCall _ _, rfl, rfl⟩

/-- A read that fails does not report success. -/
theorem read_error_ne_ok {blockNr : UInt64} {n : UInt32} {rc : RwResult} {s' : Scsi β}
    (h : s.read T blockNr n = (.error rc, s')) : rc ≠ .ok := by
  rintro rfl
  by_cases hl : s.lockingStatus T = .lockedOther
  · rw [read_of_locked hl] at h
    exact absurd h (by simp)
  rw [read_of_unlocked hl] at h
  cases hr : (T.backend.read s.disk blockNr n).1 <;> simp [hr] at h

/-! ### What a write stores -/

/-- A block of zeros reads as zero everywhere. -/
theorem getElem?_of_isZero {n : UInt32} {data : Bytes} (hz : isZero T n data = true) {i : ℕ}
    (hi : i < n.toNat * T.blockSize) (hlen : i < data.length) : data[i]? = some 0 := by
  unfold isZero at hz
  rw [List.all_eq_true] at hz
  -- `is_zero` looks at the first `n` blocks only, and the byte is in them
  have h_mem : data[i] ∈ data.take (n.toNat * T.blockSize) := by
    rw [List.mem_take_iff_getElem]
    exact ⟨i, by omega, rfl⟩
  rw [List.getElem?_eq_getElem hlen]
  exact congrArg some (by simpa using hz _ h_mem)

/-- **A successful write stores what it was given**, in whichever way the trim
level makes it do that. -/
theorem stores_writeCall {blockNr : UInt64} {n : UInt32} {data : Bytes} {i : ℕ}
    (hi : i < n.toNat * T.blockSize) (hlen : i < data.length) :
    (Event.io (writeCall T blockNr n data) true).Stores T.blockSize
      (blockNr.toNat * T.blockSize + i) data[i] := by
  have h_mul : (blockNr.toNat + n.toNat) * T.blockSize =
      blockNr.toNat * T.blockSize + n.toNat * T.blockSize := Nat.add_mul _ _ _
  unfold writeCall
  split
  · next h =>
    -- trimmed instead, as the data is all zeros
    have h_zero := getElem?_of_isZero h.2 hi hlen
    rw [List.getElem?_eq_getElem hlen] at h_zero
    exact ⟨by omega, by omega, Option.some.inj h_zero⟩
  · -- written, and the byte is at its place behind the first block
    refine ⟨by omega, by omega, ?_⟩
    rw [Nat.add_sub_cancel_left, List.getElem?_eq_getElem hlen]

theorem isWrite_writeCall (blockNr : UInt64) (n : UInt32) (data : Bytes) (ok : Bool) :
    (Event.io (writeCall T blockNr n data) ok).IsWrite := by
  unfold writeCall
  split <;> trivial

/-- A write touches the blocks it is told to. -/
theorem touches_writeCall_iff (blockNr : UInt64) (n : UInt32) (data : Bytes) (ok : Bool) (b : ℕ) :
    (Event.io (writeCall T blockNr n data) ok).Touches b ↔
      blockNr.toNat ≤ b ∧ b < blockNr.toNat + n.toNat := by
  unfold writeCall
  split <;> rfl

/-! ### Calls that move data -/

variable (T) in
/-- What a function that moves data comes to: it makes the backend calls `evs`,
and its result tells whether one of them failed. A reservation of another
session stops it before the first call. -/
structure Transfers (s : Scsi β) (rc : RwResult) (s' : Scsi β) (evs : List Event) : Prop where
  does : s.Does s' evs
  transfer : ∀ e ∈ evs, e.IsTransfer
  result : rc = .ok ∨ rc = .failLocked ∨ rc = .failGeneral
  ok : rc = .ok → ∀ e ∈ evs, ¬ e.Failed
  fail : rc = .failGeneral → ∃ e ∈ evs, e.Failed
  locked : rc = .failLocked → s.lockingStatus T = .lockedOther
  quiet : s.lockingStatus T = .lockedOther → evs = []

theorem Transfers.refl (s : Scsi β) : Transfers T s .ok s [] where
  does := .refl s
  transfer := by simp
  result := .inl rfl
  ok := by simp
  fail h := absurd h (by simp)
  locked h := absurd h (by simp)
  quiet _ := rfl

theorem Transfers.trans {s₁ s₂ s₃ : Scsi β} {rc : RwResult} {es fs : List Event}
    (h₁ : Transfers T s₁ .ok s₂ es) (h₂ : Transfers T s₂ rc s₃ fs) :
    Transfers T s₁ rc s₃ (es ++ fs) where
  does := h₁.does.trans h₂.does
  transfer := by
    intro e he
    rcases List.mem_append.mp he with he | he
    · exact h₁.transfer e he
    · exact h₂.transfer e he
  result := h₂.result
  ok := by
    intro hrc e he
    rcases List.mem_append.mp he with he | he
    · exact h₁.ok rfl e he
    · exact h₂.ok hrc e he
  fail := by
    intro hrc
    obtain ⟨e, he, hf⟩ := h₂.fail hrc
    exact ⟨e, List.mem_append_right _ he, hf⟩
  locked h := h₁.does.lockingStatus (T := T) ▸ h₂.locked h
  quiet := by
    intro hl
    rw [h₁.quiet hl, h₂.quiet (h₁.does.lockingStatus (T := T) ▸ hl), List.append_nil]

/-- A backend call that moves data. It leaves one event in the trace, changes
the state of the backend and nothing else, and fails when the backend says so. -/
theorem transfers_afterCall (hl : s.lockingStatus T ≠ .lockedOther) {call : IoCall}
    (hcall : call ≠ .sync) (r : Bool × β) :
    Transfers T s (s.afterCall call r).1 (s.afterCall call r).2 [.io call r.1] where
  does := does_afterCall call r
  transfer := by
    intro e he
    obtain rfl := List.mem_singleton.mp he
    cases call <;> trivial
  result := by
    unfold afterCall
    split <;> simp
  ok := by
    intro hok e he
    obtain rfl := List.mem_singleton.mp he
    rw [afterCall_eq_ok_iff] at hok
    simp [Event.Failed, hok]
  fail := by
    intro hf
    refine ⟨_, List.mem_singleton_self _, ?_⟩
    unfold afterCall at hf
    simpa [Event.Failed] using hf
  locked := by
    intro h
    unfold afterCall at h
    split at h <;> exact absurd h (by simp)
  quiet h := absurd h hl

theorem writeCall_ne_sync (blockNr : UInt64) (n : UInt32) (data : Bytes) :
    writeCall T blockNr n data ≠ .sync := by
  unfold writeCall
  split <;> simp

/-- A function that is stopped by a reservation. -/
theorem transfers_of_locked (hl : s.lockingStatus T = .lockedOther) :
    Transfers T s .failLocked s [] where
  does := .refl s
  transfer := by simp
  result := .inr (.inl rfl)
  ok h := absurd h (by simp)
  fail h := absurd h (by simp)
  locked _ := hl
  quiet _ := rfl

/-! ### Calls that write -/

variable (T) in
/-- What a function comes to that writes and trims only. -/
structure Writes (s : Scsi β) (rc : RwResult) (s' : Scsi β) (evs : List Event) : Prop
    extends Transfers T s rc s' evs where
  write : ∀ e ∈ evs, e.IsWrite

theorem Writes.refl (s : Scsi β) : Writes T s .ok s [] :=
  { Transfers.refl s with write := by simp }

theorem Writes.trans {s₁ s₂ s₃ : Scsi β} {rc : RwResult} {es fs : List Event}
    (h₁ : Writes T s₁ .ok s₂ es) (h₂ : Writes T s₂ rc s₃ fs) : Writes T s₁ rc s₃ (es ++ fs) :=
  { h₁.toTransfers.trans h₂.toTransfers with
    write := List.forall_mem_append.mpr ⟨h₁.write, h₂.write⟩ }

theorem writes_of_locked (hl : s.lockingStatus T = .lockedOther) : Writes T s .failLocked s [] :=
  { transfers_of_locked hl with write := by simp }

theorem writes_write (s : Scsi β) (blockNr : UInt64) (n : UInt32) (data : Bytes) :
    ∃ evs, Writes T s (s.write T blockNr n data).1 (s.write T blockNr n data).2 evs := by
  by_cases hl : s.lockingStatus T = .lockedOther
  · rw [write_of_locked hl]
    exact ⟨[], writes_of_locked hl⟩
  · rw [write_of_unlocked hl]
    exact ⟨_, transfers_afterCall hl (writeCall_ne_sync blockNr n data) _,
      by simp [isWrite_writeCall]⟩

/-- A write moves data. -/
theorem transfers_write (s : Scsi β) (blockNr : UInt64) (n : UInt32) (data : Bytes) :
    ∃ evs, Transfers T s (s.write T blockNr n data).1 (s.write T blockNr n data).2 evs :=
  (writes_write s blockNr n data).imp fun _ h => h.toTransfers

/-- One call, and if it succeeds a loop over the rest. The loops of the source
that stop at the first failure all have this shape. -/
theorem writes_loop {r : RwResult × Scsi β} {rest : Scsi β → RwResult × Scsi β}
    (hfirst : ∃ evs, Writes T s r.1 r.2 evs)
    (hrest : ∀ s', ∃ evs, Writes T s' (rest s').1 (rest s').2 evs) :
    ∃ evs, Writes T s (match r with | (.ok, s') => rest s' | (rc, s') => (rc, s')).1
      (match r with | (.ok, s') => rest s' | (rc, s') => (rc, s')).2 evs := by
  obtain ⟨es, hes⟩ := hfirst
  obtain ⟨rc, s'⟩ := r
  cases rc with
  | ok =>
    obtain ⟨fs, hfs⟩ := hrest s'
    exact ⟨_, hes.trans hfs⟩
  -- any failure ends the loop with what the first call did
  | failRw => exact ⟨es, hes⟩
  | failLocked => exact ⟨es, hes⟩
  | failGeneral => exact ⟨es, hes⟩
  | failMismatch => exact ⟨es, hes⟩

/-- The zeros of a trim at level 0 are writes. -/
theorem writes_writeZeros (k : ℕ) (blockNr : UInt64) (s : Scsi β) :
    ∃ evs, Writes T s (writeZeros T k blockNr s).1 (writeZeros T k blockNr s).2 evs := by
  induction k generalizing blockNr s with
  | zero => exact ⟨[], .refl s⟩
  | succ k ih => exact writes_loop (writes_write s _ _ _) fun s' => ih (blockNr + 1) s'

theorem writes_trim (s : Scsi β) (blockNr : UInt64) (n : UInt32) :
    ∃ evs, Writes T s (s.trim T blockNr n).1 (s.trim T blockNr n).2 evs := by
  unfold trim
  by_cases hl : s.lockingStatus T = .lockedOther
  · rw [if_neg (not_not.mpr hl)]
    exact ⟨[], writes_of_locked hl⟩
  · rw [if_pos hl]
    -- level 0 writes zeros block by block, the other levels make one call
    split
    · exact writes_writeZeros _ _ _
    · exact ⟨_, transfers_afterCall hl (by simp) _, by simp [Event.IsWrite]⟩

theorem writes_writeSameBlocks (isUnmap : Bool) (data : Bytes) (k : ℕ) (lba : UInt64)
    (s : Scsi β) :
    ∃ evs, Writes T s (writeSameBlocks T isUnmap data k lba s).1
      (writeSameBlocks T isUnmap data k lba s).2 evs := by
  induction k generalizing lba s with
  | zero => exact ⟨[], .refl s⟩
  | succ k ih =>
    -- one block after the other, each trimmed or written as the UNMAP bit says
    refine writes_loop ?_ fun s' => ih (lba + 1) s'
    unfold writeSameBlock
    split
    · exact writes_trim s lba 1
    · exact writes_write s lba 1 data

/-! ### The effect on the medium -/

variable {medium : β → Medium UInt8}

/-- A list of zeros. -/
theorem take_eq_replicate_of_isZero {n : UInt32} {data : Bytes} (hz : isZero T n data = true)
    (hlen : n.toNat * T.blockSize ≤ data.length) :
    data.take (n.toNat * T.blockSize) = List.replicate (n.toNat * T.blockSize) 0 := by
  unfold isZero at hz
  rw [List.eq_replicate_iff]
  refine ⟨by simpa using hlen, fun b hb => ?_⟩
  simpa using List.all_eq_true.mp hz b hb

/-- **A successful write, on the medium.** Of the data as much is used as there
are blocks; what is behind it stays where it is. -/
theorem writeBackend_medium (hB : T.backend.Stores medium) {disk : β} {blockNr : UInt64}
    {n : UInt32} {data : Bytes} (hin : T.backend.InRange disk blockNr n)
    (hlen : n.toNat * T.blockSize ≤ data.length)
    (hok : (writeBackend T disk blockNr n data).1 = true) :
    medium (writeBackend T disk blockNr n data).2 =
      (medium disk).store (blockNr.toNat * T.blockSize) (data.take (n.toNat * T.blockSize)) := by
  unfold writeBackend at hok ⊢
  split
  · next h =>
    -- a trim clears the range, and zeros are what there was to store
    rw [if_pos h] at hok
    rw [hB.trim_ok disk blockNr n hin hok, Medium.clear_eq_store,
      take_eq_replicate_of_isZero h.2 hlen]
  · next h =>
    rw [if_neg h] at hok
    exact hB.write_ok disk blockNr n data hin hlen hok

/-- A sync changes neither the medium nor the size. -/
theorem sync_medium (hB : T.backend.Stores medium) (s : Scsi β) :
    medium (s.sync T).2.disk = medium s.disk ∧ (s.sync T).2.size T = s.size T := by
  by_cases h : s.lockingStatus T = .lockedOther
  · rw [sync_of_locked h]
    exact ⟨rfl, rfl⟩
  · rw [sync_of_unlocked h]
    exact ⟨hB.sync_medium _, congrArg UInt64.toNat (hB.sync_size _)⟩

/-- A write inside the device leaves its size alone. -/
theorem writeBackend_size (hB : T.backend.Stores medium) {disk : β} {blockNr : UInt64}
    {n : UInt32} {data : Bytes} (hin : T.backend.InRange disk blockNr n) :
    T.backend.getSizeInBlocks (writeBackend T disk blockNr n data).2 =
      T.backend.getSizeInBlocks disk := by
  unfold writeBackend
  split
  · exact hB.trim_size disk blockNr n hin
  · exact hB.write_size disk blockNr n data hin

/-- A write that succeeds, on the medium and on the size of the device. -/
theorem medium_write (hB : T.backend.Stores medium) {s : Scsi β} {blockNr : UInt64} {n : UInt32}
    {data : Bytes} (hin : T.backend.InRange s.disk blockNr n)
    (hlen : n.toNat * T.blockSize ≤ data.length) (hok : (s.write T blockNr n data).1 = .ok) :
    medium (s.write T blockNr n data).2.disk =
        (medium s.disk).store (blockNr.toNat * T.blockSize) (data.take (n.toNat * T.blockSize)) ∧
      T.backend.getSizeInBlocks (s.write T blockNr n data).2.disk =
        T.backend.getSizeInBlocks s.disk := by
  obtain ⟨-, h_ok, h_disk⟩ := write_ok hok
  rw [h_disk]
  exact ⟨writeBackend_medium hB hin hlen h_ok, writeBackend_size hB hin⟩

/-- **The loop of a trim at level 0** stores zeros, block after block. By
induction on the blocks: the first write puts a block of zeros in front of what
the others put. -/
theorem medium_writeZeros (hB : T.backend.Stores medium) (k : ℕ) (blockNr : UInt64) (s : Scsi β)
    (hin : blockNr.toNat + k ≤ (T.backend.getSizeInBlocks s.disk).toNat)
    (hok : (writeZeros T k blockNr s).1 = .ok) :
    medium (writeZeros T k blockNr s).2.disk =
        (medium s.disk).store (blockNr.toNat * T.blockSize)
          (List.replicate (k * T.blockSize) 0) ∧
      T.backend.getSizeInBlocks (writeZeros T k blockNr s).2.disk =
        T.backend.getSizeInBlocks s.disk := by
  induction k generalizing blockNr s with
  | zero =>
    rw [Nat.zero_mul]
    exact ⟨(Medium.store_nil _ _).symm, rfl⟩
  | succ k ih =>
    have h_one : (1 : UInt32).toNat = 1 := rfl
    have h_size := (T.backend.getSizeInBlocks s.disk).toNat_lt
    have h_zeros :
        (List.replicate T.blockSize (0 : UInt8)).take ((1 : UInt32).toNat * T.blockSize) =
        List.replicate T.blockSize 0 := by
      rw [h_one, Nat.one_mul]
      exact List.take_of_length_le (List.length_replicate ..).le
    -- what the first write does, when it succeeds
    have h_first := @medium_write _ T _ hB s blockNr 1 (List.replicate T.blockSize 0)
      (by rw [Backend.InRange, h_one]; omega)
      (by rw [h_one, Nat.one_mul, List.length_replicate])
    rw [h_zeros] at h_first
    unfold writeZeros at hok ⊢
    rcases h_write : s.write T blockNr 1 (List.replicate T.blockSize 0) with ⟨rc, s'⟩
    rw [h_write] at hok h_first
    cases rc with
    | ok =>
      dsimp only at hok h_first ⊢
      obtain ⟨h_medium, h_same⟩ := h_first rfl
      -- the device ends below 2^64, so the block number does not wrap
      have h_next : (blockNr + 1).toNat = blockNr.toNat + 1 := by
        rw [UInt64.toNat_add]
        exact Nat.mod_eq_of_lt (by simp; omega)
      obtain ⟨h_rest, h_rest'⟩ := ih (blockNr + 1) s' (by rw [h_next, h_same]; omega) hok
      refine ⟨?_, h_rest'.trans h_same⟩
      -- the first block, and the rest behind it
      rw [h_rest, h_medium, h_next, Nat.add_mul, Nat.one_mul, Nat.succ_mul, Nat.add_comm (k * _),
        List.replicate_add, Medium.store_append, List.length_replicate]
    | _ => exact nomatch hok

/-- **A trim that succeeds zeroes its range**, at every trim level. Where `trim`
is not to be used the blocks are written with zeros, one after the other, and
the outcome is the same. -/
theorem medium_trim (hB : T.backend.Stores medium) {s : Scsi β} {blockNr : UInt64} {n : UInt32}
    (hin : T.backend.InRange s.disk blockNr n) (hok : (s.trim T blockNr n).1 = .ok) :
    medium (s.trim T blockNr n).2.disk =
        (medium s.disk).clear (blockNr.toNat * T.blockSize) (n.toNat * T.blockSize) ∧
      T.backend.getSizeInBlocks (s.trim T blockNr n).2.disk =
        T.backend.getSizeInBlocks s.disk := by
  have h_free : s.lockingStatus T ≠ .lockedOther := by
    intro hl
    simp [trim, hl] at hok
  unfold trim at hok ⊢
  rw [if_pos h_free] at hok ⊢
  split at hok
  · next h_level =>
    -- level 0
    rw [if_pos h_level, Medium.clear_eq_store]
    exact medium_writeZeros hB n.toNat blockNr s hin hok
  · next h_level =>
    -- the backend clears the range itself
    rw [if_neg h_level]
    rw [afterCall_eq_ok_iff] at hok
    rw [afterCall_disk]
    exact ⟨hB.trim_ok s.disk blockNr n hin hok, hB.trim_size s.disk blockNr n hin⟩

end Scsi

end IscsiTarget
