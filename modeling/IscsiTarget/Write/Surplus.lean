import IscsiTarget.Write.Containment
import IscsiTarget.Write.Immediate

/-!
# Where immediate data is written

The whole blocks of the immediate data are cut to the length of the command, and what is left
of a block goes into the block behind *all the blocks that arrived*. When the data is longer
than the command asks for by less than a block, that is the block behind the command
(`OneMore`). `surplus_iff` says that it is the only way immediate data leaves the range of its
command.
-/

namespace IscsiTarget

variable {β : Type} (T : Target β)

/-- The immediate data ends inside the block behind the `n` blocks of the
command, and that block is read and written back: the blocks before it are
stored, and the read succeeds. -/
structure OneMore (s : Scsi β) (lba : UInt64) (n : UInt32) (data : Bytes) : Prop where
  longer : T.nBytes n < data.length
  shorter : data.length < T.nBytes n + T.blockSize
  stored : (s.storeBlocks T lba n data).1 = .ok
  read : ∃ buf s', (s.storeBlocks T lba n data).2.read T (lba + n.toUInt64) 1 = (.ok buf, s')

namespace Scsi

variable {T} {s : Scsi β} {lba : UInt64} {n : UInt32} {data : Bytes}

/-- The blocks that are stored as a whole belong to the command: there are never
more of them than it asks for. -/
theorem touches_storeBlocks (hlen : data.length < 2 ^ 24) :
    ∃ evs, s.Does (s.storeBlocks T lba n data).2 evs ∧
      ∀ e ∈ evs, ∀ b, e.Touches b → lba.toNat ≤ b ∧ b < lba.toNat + n.toNat := by
  have h_work := toNat_workNBlocks (T := T) (n := n) hlen
  unfold storeBlocks
  split
  · by_cases hl : s.lockingStatus T = .lockedOther
    · rw [write_of_locked hl]
      exact ⟨[], .refl s, by simp⟩
    · rw [write_of_unlocked hl]
      refine ⟨_, does_afterCall _ _, fun e he b hb => ?_⟩
      obtain rfl := List.mem_singleton.mp he
      rw [touches_writeCall_iff] at hb
      omega
  · exact ⟨[], .refl s, by simp⟩

/-- A read touches nothing. -/
theorem touches_read (s : Scsi β) (blockNr : UInt64) (k : UInt32) :
    ∃ evs, s.Does (s.read T blockNr k).2 evs ∧ ∀ e ∈ evs, ∀ b, ¬e.Touches b := by
  by_cases hl : s.lockingStatus T = .lockedOther
  · rw [read_of_locked hl]
    exact ⟨[], .refl s, by simp⟩
  · rw [read_of_unlocked hl]
    refine ⟨_, does_afterCall _ _, fun e he b => ?_⟩
    obtain rfl := List.mem_singleton.mp he
    exact id

/-- The write of a fragment touches one block, the one behind the blocks that
arrived. It is written only when the block behind the whole ones could be read. -/
theorem touches_storeFragment :
    ∃ evs, s.Does (s.storeFragment T lba n data).2 evs ∧
      ((∀ e ∈ evs, ∀ b, e.Touches b → lba.toNat ≤ b ∧ b < lba.toNat + n.toNat) ↔
        ((∃ buf s', s.read T (lba + (workNBlocks T n data).toUInt64) 1 = (.ok buf, s')) →
          lba.toNat ≤ (lba + UInt64.ofNat (data.length / T.blockSize)).toNat ∧
            (lba + UInt64.ofNat (data.length / T.blockSize)).toNat < lba.toNat + n.toNat)) := by
  obtain ⟨es, h_es, h_none⟩ := touches_read (T := T) s (lba + (workNBlocks T n data).toUInt64) 1
  unfold storeFragment
  generalize h_read : s.read T (lba + (workNBlocks T n data).toUInt64) 1 = r at h_es ⊢
  obtain ⟨rc | buf, s₁⟩ := r
  · -- the block cannot be read
    refine ⟨es, h_es, iff_of_true (fun e he b hb => absurd hb (h_none e he b)) ?_⟩
    rintro ⟨buf, s', h⟩
    exact absurd h (by simp)
  · have hl : s₁.lockingStatus T ≠ .lockedOther := by
      rw [h_es.lockingStatus]
      intro hl
      rw [read_of_locked hl] at h_read
      exact absurd h_read (by simp)
    dsimp only
    rw [write_of_unlocked hl]
    refine ⟨_, h_es.trans (does_afterCall _ _), ?_⟩
    rw [List.forall_mem_append, List.forall_mem_singleton]
    constructor
    · rintro ⟨-, h_write⟩ -
      exact h_write _ ((touches_writeCall_iff _ _ _ _ _).mpr ⟨le_refl _, by simp⟩)
    · -- the read touches nothing, and the write one block
      intro h
      refine ⟨fun e he b hb => absurd hb (h_none e he b), fun b hb => ?_⟩
      have h_in := h ⟨buf, s₁, rfl⟩
      rw [touches_writeCall_iff] at hb
      have h_one : (1 : UInt32).toNat = 1 := rfl
      omega

/-- Less than a block behind the command: all the blocks of the command have
arrived. -/
theorem workNBlocks_of_surplus (hlen : data.length < 2 ^ 24) (h_le : T.nBytes n ≤ data.length)
    (h_lt : data.length < T.nBytes n + T.blockSize) :
    data.length / T.blockSize = n.toNat ∧ workNBlocks T n data = n := by
  have h_work := toNat_workNBlocks (T := T) (n := n) hlen
  have h_div : data.length / T.blockSize = n.toNat := by
    unfold Target.nBytes at h_le h_lt
    rw [Nat.div_eq_iff T.blockSize_pos]
    omega
  exact ⟨h_div, UInt32.toNat_inj.mp (by omega)⟩

/-- **Where immediate data is written.** All of it inside the range of the
command, but for one more block that surplus data may lead to. -/
theorem touches_storeImmediate (hlen : data.length < 2 ^ 24)
    (hend : lba.toNat + n.toNat < 2 ^ 64) :
    ∃ evs, s.Does (s.storeImmediate T lba n data).2 evs ∧
      ((∀ e ∈ evs, ∀ b, e.Touches b → lba.toNat ≤ b ∧ b < lba.toNat + n.toNat) ↔
        ¬OneMore T s lba n data) := by
  obtain ⟨es, h_es, h_inside⟩ := @touches_storeBlocks _ T s lba n data hlen
  have h_work := toNat_workNBlocks (T := T) (n := n) hlen
  unfold storeImmediate
  dsimp only
  split
  · next h =>
    obtain ⟨h_ok, h_pos, h_frag⟩ := h
    obtain ⟨fs, h_fs, h_iff⟩ :=
      @touches_storeFragment _ T (s.storeBlocks T lba n data).2 lba n data
    refine ⟨es ++ fs, h_es.trans h_fs, ?_⟩
    rw [List.forall_mem_append, and_iff_right h_inside, h_iff]
    -- the fragment goes behind the blocks that arrived, of which there are at most `n`
    have h_blocks := workNBlocks_of_fragment hlen h_frag
    have h_addr : (lba + UInt64.ofNat (data.length / T.blockSize)).toNat =
        lba.toNat + data.length / T.blockSize := toNat_add_ofNat (by omega)
    rw [h_addr]
    constructor
    · intro h_in h_one
      obtain ⟨h_div, h_n⟩ := workNBlocks_of_surplus hlen h_one.longer.le h_one.shorter
      rw [h_n] at h_in
      have h_lt := (h_in h_one.read).2
      omega
    · intro h_not h_read
      refine ⟨Nat.le_add_right _ _, ?_⟩
      by_contra h_ge
      have h_n : workNBlocks T n data = n := UInt32.toNat_inj.mp (by omega)
      rw [h_n] at h_pos h_frag h_read
      exact h_not ⟨by omega, by omega, h_ok, h_read⟩
  · next h =>
    refine ⟨es, h_es, iff_of_true h_inside fun h_one => h ?_⟩
    obtain ⟨-, h_n⟩ := workNBlocks_of_surplus hlen h_one.longer.le h_one.shorter
    rw [h_n]
    have h_longer := h_one.longer
    have h_shorter := h_one.shorter
    exact ⟨h_one.stored, by omega, by omega⟩

end Scsi

variable {T} in
/-- What `write_verify` leaves behind, past the check. It syncs only when the
data that came is all the data there is. -/
theorem writeVerify_state {s : Scsi β} {q : Pdu}
    (h_valid : s.validateRequest T q.lba q.nBlocks (some q.bhs.getCdb) = none) :
    (s.writeVerify T q.bhs.getCdb q.data).2 =
      if q.data ≠ [] ∧ (s.storeImmediate T q.lba q.nBlocks q.data).1 = .ok ∧
          q.data.length = T.build.sizeT (T.nBytes q.nBlocks) then
        syncedIf T q.fua (s.storeImmediate T q.lba q.nBlocks q.data).2
      else (s.storeImmediate T q.lba q.nBlocks q.data).2 := by
  have h_valid' : s.validateRequest T q.bhs.getCdb.range.1 q.bhs.getCdb.range.2
    (some q.bhs.getCdb) = none := h_valid
  unfold Scsi.writeVerify
  simp only [h_valid']
  by_cases hd : q.data = []
  · simp only [hd, ne_eq, not_true_eq_false, false_and, if_false, Scsi.storeImmediate_nil]
    split <;> rfl
  · rw [if_pos hd]
    have h_store : s.storeImmediate T q.bhs.getCdb.range.1 q.bhs.getCdb.range.2 q.data =
      s.storeImmediate T q.lba q.nBlocks q.data := rfl
    rw [h_store]
    generalize s.storeImmediate T q.lba q.nBlocks q.data = r
    obtain ⟨rc, s'⟩ := r
    -- only a store that has worked is followed by a sync
    cases rc with
    | ok =>
      by_cases h_all : q.data.length = T.build.sizeT (T.nBytes q.nBlocks)
      · rw [if_pos ⟨hd, rfl, h_all⟩]
        exact congrArg Prod.snd (if_pos h_all)
      · rw [if_neg fun h => h_all h.2.2]
        exact congrArg Prod.snd (if_neg h_all)
    | failRw => exact (if_neg fun h => by simp at h).symm
    | failLocked => exact (if_neg fun h => by simp at h).symm
    | failGeneral => exact (if_neg fun h => by simp at h).symm
    | failMismatch => exact (if_neg fun h => by simp at h).symm

/-- **Immediate data and the range of its command.** For a WRITE that
`validate_request` lets through: `write_verify` writes inside the range of the
command unless the data ends inside the block behind it and that block can be
read. -/
theorem surplus_iff (s : Scsi β) {q : Pdu} (hq : q.IsWrite)
    (h_valid : s.validateRequest T q.lba q.nBlocks (some q.bhs.getCdb) = none) :
    ∃ response s' evs,
      s.send T 0 q.bhs.getLunNr q.bhs.getCdb q.data = .ok (response, s') ∧ s.Does s' evs ∧
      ((∀ e ∈ evs, ∀ b, e.Touches b → InCommand q b) ↔ ¬OneMore T s q.lba q.nBlocks q.data) := by
  have hend := Scsi.lt_of_validateRequest T s h_valid
  obtain ⟨es, h_es, h_iff⟩ :=
    Scsi.touches_storeImmediate (T := T) (s := s) (n := q.nBlocks) q.data_lt hend
  -- `write_verify` is what the command comes to, so its state is all there is to say
  suffices h : ∃ evs, s.Does (s.writeVerify T q.bhs.getCdb q.data).2 evs ∧
      ((∀ e ∈ evs, ∀ b, e.Touches b → InCommand q b) ↔
        ¬OneMore T s q.lba q.nBlocks q.data) by
    obtain ⟨evs, h_does, h_inside⟩ := h
    have h_send := send_of_isWrite (T := T) 0 s q.bhs.getLunNr q.data hq.write
    generalize s.writeVerify T q.bhs.getCdb q.data = r at h_does h_send
    exact ⟨r.1, r.2, evs, h_send, h_does, h_inside⟩
  rw [writeVerify_state h_valid]
  split
  · -- a sync comes behind the data, and touches nothing
    obtain ⟨fs, h_fs, h_sync⟩ := does_syncedIf (T := T) q.fua
      (s.storeImmediate T q.lba q.nBlocks q.data).2
    refine ⟨es ++ fs, h_es.trans h_fs, ?_⟩
    rw [List.forall_mem_append, and_iff_left]
    · exact h_iff
    · intro e he b hb
      obtain ⟨ok, rfl⟩ := h_sync e he
      exact absurd hb (not_touches_sync ok b)
  · exact ⟨es, h_es, h_iff⟩

/-- A WRITE(10) of the block 2, with a block and four bytes of data. -/
def Sample.surplus : Pdu :=
  Sample.command 5 20 (Sample.cdb10 0x2a 0 2 1) (Sample.block 9 ++ [1, 2, 3, 4])

/-- A WRITE(10) of the block 2, with less than a block of data. -/
def Sample.shortWrite : Pdu := Sample.command 5 16 (Sample.cdb10 0x2a 0 2 1) [1, 2, 3, 4]

/-- Less than a block for one block stays inside. -/
theorem surplus_short :
    ∃ response s' evs,
      (Sample.conn 8 []).scsi.send (Sample.target 8) 0 Sample.shortWrite.bhs.getLunNr
        Sample.shortWrite.bhs.getCdb Sample.shortWrite.data = .ok (response, s') ∧
      (Sample.conn 8 []).scsi.Does s' evs ∧
      ∀ e ∈ evs, ∀ b, e.Touches b → InCommand Sample.shortWrite b := by
  have h_write : Sample.shortWrite.IsWrite := ⟨by decide +kernel, by decide +kernel⟩
  obtain ⟨response, s', evs, h_send, h_does, h_iff⟩ :=
    surplus_iff (Sample.target 8) (Sample.conn 8 []).scsi h_write (by decide +kernel)
  refine ⟨response, s', evs, h_send, h_does, h_iff.mpr fun h_one => ?_⟩
  exact absurd h_one.longer (by decide +kernel)

/-- Four bytes more than the one block of the command are written to the block
behind it, which is read first. -/
theorem surplus_next_block :
    (Sample.conn 8 []).scsi.validateRequest (Sample.target 8) Sample.surplus.lba
      Sample.surplus.nBlocks (some Sample.surplus.bhs.getCdb) = none ∧
    ∃ r, (Sample.conn 8 []).scsi.send (Sample.target 8) 0 Sample.surplus.bhs.getLunNr
        Sample.surplus.bhs.getCdb Sample.surplus.data = .ok r ∧
      ∃ e ∈ r.2.history, e.Touches 3 ∧ ¬InCommand Sample.surplus 3 := by
  have h_eval : ((Sample.conn 8 []).scsi.send (Sample.target 8) 0 Sample.surplus.bhs.getLunNr
      Sample.surplus.bhs.getCdb Sample.surplus.data).toOption.any (fun r => decide
        (.io (.write 3 1 ([1, 2, 3, 4] ++ List.replicate 12 0)) true ∈ r.2.history)) = true := by
    decide +kernel
  obtain ⟨r, h_send, h_mem⟩ := Machine.exists_ok_of_any h_eval
  refine ⟨by decide +kernel, r, h_send, _, h_mem, ⟨by decide, by decide⟩, ?_⟩
  rintro ⟨-, h⟩
  exact absurd h (by decide +kernel)

end IscsiTarget
