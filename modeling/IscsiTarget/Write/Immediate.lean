import IscsiTarget.Emit

/-!
# Immediate data

`storeImmediate` stores the whole blocks of the immediate data and then merges
what is left of a block into the block on the medium. Here is what it does to
the trace (`transfers_storeImmediate`), which bytes are on the medium when it
succeeds (`stores_of_storeImmediate`), and what a backend that keeps the contract
makes of it (`storeImmediate_medium`).
-/

namespace IscsiTarget

namespace Scsi

variable {β : Type} {T : Target β} {s : Scsi β}

/-- Without data there is nothing to store. -/
theorem storeImmediate_nil (s : Scsi β) (lba : UInt64) (n : UInt32) :
    s.storeImmediate T lba n [] = (.ok, s) := by
  simp [storeImmediate, storeBlocks]

/-! ### The trace -/

theorem transfers_storeBlocks (s : Scsi β) (lba : UInt64) (n : UInt32) (data : Bytes) :
    ∃ evs, Transfers T s (s.storeBlocks T lba n data).1 (s.storeBlocks T lba n data).2 evs := by
  unfold storeBlocks
  split
  · exact transfers_write s _ _ _
  · exact ⟨[], .refl s⟩

theorem transfers_storeFragment (s : Scsi β) (lba : UInt64) (n : UInt32) (data : Bytes) :
    ∃ evs, Transfers T s (s.storeFragment T lba n data).1
      (s.storeFragment T lba n data).2 evs := by
  unfold storeFragment
  by_cases hl : s.lockingStatus T = .lockedOther
  · rw [read_of_locked hl]
    exact ⟨[], transfers_of_locked hl⟩
  · -- a read, and a write when it has worked
    rw [read_of_unlocked hl]
    have h_read := transfers_afterCall hl
      (show IoCall.read (lba + (workNBlocks T n data).toUInt64) 1 ≠ .sync by simp)
      ((T.backend.read s.disk (lba + (workNBlocks T n data).toUInt64) 1).1.isSome,
        (T.backend.read s.disk (lba + (workNBlocks T n data).toUInt64) 1).2)
    cases hr : (T.backend.read s.disk (lba + (workNBlocks T n data).toUInt64) 1).1 with
    | none =>
      rw [hr] at h_read
      exact ⟨_, h_read⟩
    | some buf =>
      rw [hr] at h_read
      obtain ⟨evs, hevs⟩ := transfers_write (T := T) (s.afterCall _ _).2 _ _ _
      exact ⟨_, h_read.trans hevs⟩

/-- **Immediate data makes transfers only**, and the result tells how they went:
a write of the whole blocks, a read and a write of the last one. -/
theorem transfers_storeImmediate (s : Scsi β) (lba : UInt64) (n : UInt32) (data : Bytes) :
    ∃ evs, Transfers T s (s.storeImmediate T lba n data).1
      (s.storeImmediate T lba n data).2 evs := by
  obtain ⟨es, hes⟩ := transfers_storeBlocks (T := T) s lba n data
  unfold storeImmediate
  dsimp only
  -- the fragment comes behind the blocks, if they went well
  split
  · next h =>
    obtain ⟨fs, hfs⟩ :=
      transfers_storeFragment (T := T) (s.storeBlocks T lba n data).2 lba n data
    rw [h.1] at hes
    exact ⟨_, hes.trans hfs⟩
  · exact ⟨_, hes⟩

/-- Data there is, and a reservation of another session: nothing is stored, and
the backend is not called. -/
theorem storeImmediate_of_locked (hl : s.lockingStatus T = .lockedOther) {lba : UInt64}
    {n : UInt32} {data : Bytes} (hd : data ≠ []) :
    s.storeImmediate T lba n data = (.failLocked, s) := by
  have h_pos : 0 < data.length := List.length_pos_of_ne_nil hd
  unfold storeImmediate storeBlocks
  dsimp only
  by_cases hb : data.length / T.blockSize > 0
  · rw [if_pos hb, write_of_locked hl]
    simp
  · -- less than a block: the whole of it is the fragment
    have h_bs := T.blockSize_pos
    have h_lt : data.length < T.blockSize := by
      by_contra h
      exact hb (Nat.div_pos (by omega) h_bs)
    have h_work : T.nBytes (workNBlocks T n data) = 0 := by
      simp [workNBlocks, Nat.div_eq_of_lt h_lt, Target.nBytes, UInt32.toNat_min]
    rw [if_neg hb, h_work, if_pos ⟨rfl, by omega, by omega⟩]
    unfold storeFragment
    rw [read_of_locked hl]

/-! ### The blocks it stores -/

variable {lba : UInt64} {n : UInt32} {data : Bytes}

/-- The blocks that belong to the command, as a number. -/
theorem toNat_workNBlocks (hlen : data.length < 2 ^ 24) :
    (workNBlocks T n data).toNat = min n.toNat (data.length / T.blockSize) := by
  have h_div : data.length / T.blockSize ≤ data.length := Nat.div_le_self _ _
  have h_toNat : (UInt32.ofNat (data.length / T.blockSize)).toNat = data.length / T.blockSize :=
    toNat_ofNat_32 (h_div.trans_lt (by omega))
  rw [workNBlocks, UInt32.toNat_min, h_toNat]

/-- The blocks stored as a whole are part of the data. -/
theorem workBytes_le : T.nBytes (workNBlocks T n data) ≤ data.length := by
  have h_work : (workNBlocks T n data).toNat ≤ data.length / T.blockSize := by
    rw [workNBlocks, UInt32.toNat_min]
    exact (min_le_right _ _).trans (Nat.mod_le _ _)
  unfold Target.nBytes
  calc (workNBlocks T n data).toNat * T.blockSize
      ≤ data.length / T.blockSize * T.blockSize := Nat.mul_le_mul_right _ h_work
    _ ≤ data.length := Nat.div_mul_le_self _ _

/-- A fragment is what is left behind all the whole blocks. -/
theorem workNBlocks_of_fragment (hlen : data.length < 2 ^ 24)
    (hf : data.length - T.nBytes (workNBlocks T n data) < T.blockSize) :
    (workNBlocks T n data).toNat = data.length / T.blockSize := by
  have h_bs := T.blockSize_pos
  have h_work := @workBytes_le _ T n data
  have h_min := toNat_workNBlocks (T := T) (n := n) hlen
  unfold Target.nBytes at hf h_work
  have h_div : data.length / T.blockSize < (workNBlocks T n data).toNat + 1 := by
    rw [Nat.div_lt_iff_lt_mul h_bs, Nat.add_mul, Nat.one_mul]
    omega
  omega

/-- A byte of the command's that is not in a whole block is in the fragment,
which is shorter than a block then. -/
theorem fragment_of_ge (hlen : data.length < 2 ^ 24) {p : ℕ}
    (hp : p < min data.length (T.nBytes n)) (hge : T.nBytes (workNBlocks T n data) ≤ p) :
    0 < data.length - T.nBytes (workNBlocks T n data) ∧
      data.length - T.nBytes (workNBlocks T n data) < T.blockSize := by
  have h_min := toNat_workNBlocks (T := T) (n := n) hlen
  have h_mod := Nat.mod_lt data.length T.blockSize_pos
  have h_split := Nat.div_add_mod' data.length T.blockSize
  unfold Target.nBytes at *
  -- the command has room for more blocks, so all those that arrived are stored
  have h_work : (workNBlocks T n data).toNat = data.length / T.blockSize := by
    by_contra hne
    have h_eq : (workNBlocks T n data).toNat = n.toNat := by omega
    rw [h_eq] at hge
    omega
  rw [h_work] at hge ⊢
  omega

/-- The address of a block of the command, in bytes. -/
theorem toNat_add_toUInt64 {k : UInt32} (h : lba.toNat + k.toNat < 2 ^ 64) :
    (lba + k.toUInt64).toNat = lba.toNat + k.toNat := by
  rw [UInt64.toNat_add, UInt32.toNat_toUInt64]
  omega

/-! ### The bytes it stores -/

/-- A fragment that is stored was merged into a block that could be read. -/
theorem storeFragment_ok (hok : (s.storeFragment T lba n data).1 = .ok) :
    ∃ buf s', s.read T (lba + (workNBlocks T n data).toUInt64) 1 = (.ok buf, s') ∧
      s.storeFragment T lba n data =
        s'.write T (lba + UInt64.ofNat (data.length / T.blockSize)) 1
          (data.drop (T.nBytes (workNBlocks T n data)) ++
            buf.drop (data.length - T.nBytes (workNBlocks T n data))) := by
  unfold storeFragment at hok ⊢
  rcases hr : s.read T (lba + (workNBlocks T n data).toUInt64) 1 with ⟨rc | buf, s'⟩
  · rw [hr] at hok
    exact absurd hok (read_error_ne_ok hr)
  · exact ⟨buf, s', rfl, rfl⟩

/-- The whole blocks. There is one write for them, and it has the bytes of the
data in their places. -/
theorem stores_of_storeBlocks (hlen : data.length < 2 ^ 24)
    (hok : (s.storeBlocks T lba n data).1 = .ok) :
    ∃ evs, s.Does (s.storeBlocks T lba n data).2 evs ∧
      ∀ p v, p < T.nBytes (workNBlocks T n data) → data[p]? = some v →
        ∃ e ∈ evs, e.Stores T.blockSize (lba.toNat * T.blockSize + p) v := by
  have h_min := toNat_workNBlocks (T := T) (n := n) hlen
  unfold storeBlocks at hok ⊢
  split at hok
  · next hb =>
    rw [if_pos hb]
    refine ⟨_, (write_ok hok).1, ?_⟩
    intro p v hp hv
    obtain ⟨h_in, rfl⟩ := List.getElem?_eq_some_iff.mp hv
    exact ⟨_, List.mem_singleton_self _, stores_writeCall hp h_in⟩
  · next hb =>
    rw [if_neg hb]
    refine ⟨[], .refl s, ?_⟩
    -- there is no whole block
    intro p v hp hv
    have h_zero : (workNBlocks T n data).toNat = 0 := by omega
    simp [Target.nBytes, h_zero] at hp

/-- The fragment. The block behind the others is read, its front part is
replaced by the rest of the data, and it is written back. -/
theorem stores_of_storeFragment (hlen : data.length < 2 ^ 24)
    (hend : lba.toNat + n.toNat < 2 ^ 64)
    (hf : data.length - T.nBytes (workNBlocks T n data) < T.blockSize)
    (hok : (s.storeFragment T lba n data).1 = .ok) :
    ∃ evs, s.Does (s.storeFragment T lba n data).2 evs ∧
      ∀ p v, T.nBytes (workNBlocks T n data) ≤ p → data[p]? = some v →
        ∃ e ∈ evs, e.Stores T.blockSize (lba.toNat * T.blockSize + p) v := by
  have h_min := toNat_workNBlocks (T := T) (n := n) hlen
  have h_blocks := workNBlocks_of_fragment hlen hf
  obtain ⟨buf, s', h_read, h_eq⟩ := storeFragment_ok hok
  rw [h_eq] at hok ⊢
  refine ⟨_, (read_ok h_read).1.trans (write_ok hok).1, ?_⟩
  intro p v hp hv
  obtain ⟨h_in, rfl⟩ := List.getElem?_eq_some_iff.mp hv
  obtain ⟨i, rfl⟩ : ∃ i, p = T.nBytes (workNBlocks T n data) + i :=
    ⟨p - T.nBytes (workNBlocks T n data), by omega⟩
  have h_lt : i < (data.drop (T.nBytes (workNBlocks T n data)) ++
      buf.drop (data.length - T.nBytes (workNBlocks T n data))).length := by
    rw [List.length_append, List.length_drop]
    omega
  have h_stores : (Event.io (writeCall T (lba + UInt64.ofNat (data.length / T.blockSize)) 1
      (data.drop (T.nBytes (workNBlocks T n data)) ++
        buf.drop (data.length - T.nBytes (workNBlocks T n data)))) true).Stores T.blockSize
      ((lba + UInt64.ofNat (data.length / T.blockSize)).toNat * T.blockSize + i) _ :=
    stores_writeCall (by simp; omega) h_lt
  -- the block of the write is the one behind the whole blocks, where the fragment belongs
  have h_addr : (lba + UInt64.ofNat (data.length / T.blockSize)).toNat * T.blockSize + i =
      lba.toNat * T.blockSize + (T.nBytes (workNBlocks T n data) + i) := by
    rw [toNat_add_ofNat (by omega), ← h_blocks, Nat.add_mul, Nat.add_assoc]
    rfl
  refine ⟨_, List.mem_append_right _ (List.mem_singleton_self _), ?_⟩
  rw [h_addr, List.getElem_append_left (by simp; omega), List.getElem_drop] at h_stores
  exact h_stores

/-- **Immediate data that is stored is on the medium**: every byte of it that
belongs to the command, at its place. -/
theorem stores_of_storeImmediate (hlen : data.length < 2 ^ 24)
    (hend : lba.toNat + n.toNat < 2 ^ 64) (hok : (s.storeImmediate T lba n data).1 = .ok) :
    ∃ evs, s.Does (s.storeImmediate T lba n data).2 evs ∧
      ∀ p v, p < T.nBytes n → data[p]? = some v →
        ∃ e ∈ evs, e.Stores T.blockSize (lba.toNat * T.blockSize + p) v := by
  unfold storeImmediate at hok ⊢
  dsimp only at hok ⊢
  split at hok
  · next h =>
    rw [if_pos h]
    obtain ⟨es, h_es, h_blocks⟩ := stores_of_storeBlocks hlen h.1
    obtain ⟨fs, h_fs, h_frag⟩ := stores_of_storeFragment hlen hend h.2.2 hok
    refine ⟨_, h_es.trans h_fs, ?_⟩
    intro p v _ hv
    by_cases hp : p < T.nBytes (workNBlocks T n data)
    · obtain ⟨e, he, hst⟩ := h_blocks p v hp hv
      exact ⟨e, List.mem_append_left _ he, hst⟩
    · obtain ⟨e, he, hst⟩ := h_frag p v (by omega) hv
      exact ⟨e, List.mem_append_right _ he, hst⟩
  · next h =>
    rw [if_neg h]
    obtain ⟨es, h_es, h_blocks⟩ := stores_of_storeBlocks hlen hok
    refine ⟨es, h_es, ?_⟩
    intro p v hp hv
    refine h_blocks p v ?_ hv
    -- a byte behind the whole blocks would have made a fragment
    by_contra hge
    have h_in := (List.getElem?_eq_some_iff.mp hv).1
    exact h ⟨hok, fragment_of_ge hlen (p := p) (by omega) (by omega)⟩

/-! ### The effect on the medium -/

variable {medium : β → Medium UInt8}

/-- The whole blocks, as the medium shows them: the beginning of the data is at
the address of the command. -/
theorem storeBlocks_medium (hB : T.backend.Stores medium) (hlen : data.length < 2 ^ 24)
    (hin : lba.toNat + n.toNat ≤ s.size T) (hok : (s.storeBlocks T lba n data).1 = .ok) :
    medium (s.storeBlocks T lba n data).2.disk =
        (medium s.disk).store (lba.toNat * T.blockSize)
          (data.take (T.nBytes (workNBlocks T n data))) ∧
      (s.storeBlocks T lba n data).2.size T = s.size T := by
  have h_min := toNat_workNBlocks (T := T) (n := n) hlen
  unfold storeBlocks at hok ⊢
  split at hok
  · -- there is a whole block, and the contract of the backend says where it goes
    next hb =>
    rw [if_pos hb]
    obtain ⟨-, h_ok, h_disk⟩ := write_ok hok
    have h_range : T.backend.InRange s.disk lba (workNBlocks T n data) := by
      change _ ≤ s.size T
      omega
    refine ⟨?_, ?_⟩
    · rw [h_disk]
      exact writeBackend_medium hB h_range workBytes_le h_ok
    · rw [size, getSizeInBlocks, h_disk, writeBackend_size hB h_range]
      rfl
  · next hb =>
    have h_zero : (workNBlocks T n data).toNat = 0 := by omega
    rw [if_neg hb]
    simp [Target.nBytes, h_zero]

/-- The fragment: the block on the medium keeps what the data does not cover.
Read and written back, it differs only where the data is. -/
theorem storeFragment_medium (hB : T.backend.Stores medium) (hlen : data.length < 2 ^ 24)
    (hin : lba.toNat + n.toNat ≤ s.size T) (hk : data.length ≤ T.nBytes n)
    (hpos : 0 < data.length - T.nBytes (workNBlocks T n data))
    (hf : data.length - T.nBytes (workNBlocks T n data) < T.blockSize)
    (hok : (s.storeFragment T lba n data).1 = .ok) :
    medium (s.storeFragment T lba n data).2.disk =
        (medium s.disk).store (lba.toNat * T.blockSize + T.nBytes (workNBlocks T n data))
          (data.drop (T.nBytes (workNBlocks T n data))) ∧
      (s.storeFragment T lba n data).2.size T = s.size T := by
  have h_blocks := workNBlocks_of_fragment hlen hf
  have h_size : s.size T < 2 ^ 64 := (s.getSizeInBlocks T).toNat_lt
  -- the block of the fragment is one of the command's
  have h_lt : data.length / T.blockSize < n.toNat := by
    rw [← h_blocks]
    unfold Target.nBytes at hpos hk
    exact lt_of_mul_lt_mul_right (a := T.blockSize) (by omega) (Nat.zero_le _)
  obtain ⟨buf, s', h_read, h_eq⟩ := storeFragment_ok hok
  rw [h_eq] at hok ⊢
  obtain ⟨-, h_buf, h_disk'⟩ := read_ok h_read
  obtain ⟨-, h_ok, h_disk⟩ := write_ok hok
  have h_addr : (lba + (workNBlocks T n data).toUInt64).toNat =
      lba.toNat + (workNBlocks T n data).toNat := toNat_add_toUInt64 (by omega)
  have h_addr' : (lba + UInt64.ofNat (data.length / T.blockSize)).toNat =
      lba.toNat + (workNBlocks T n data).toNat := by
    rw [toNat_add_ofNat (by omega), h_blocks]
  have h_range : T.backend.InRange s.disk (lba + (workNBlocks T n data).toUInt64) 1 := by
    change _ ≤ s.size T
    rw [h_addr]
    simp
    omega
  have h_size' : T.backend.getSizeInBlocks s'.disk = T.backend.getSizeInBlocks s.disk := by
    rw [h_disk', hB.read_size]
  have h_range' : T.backend.InRange s'.disk
      (lba + UInt64.ofNat (data.length / T.blockSize)) 1 := by
    unfold Backend.InRange at h_range ⊢
    rw [h_size', h_addr', ← h_addr]
    exact h_range
  have h_slice := hB.read_ok _ _ _ _ h_range h_buf
  have h_bytes : (lba.toNat + (workNBlocks T n data).toNat) * T.blockSize =
      lba.toNat * T.blockSize + T.nBytes (workNBlocks T n data) := Nat.add_mul _ _ _
  have h_len : (data.drop (T.nBytes (workNBlocks T n data)) ++
      buf.drop (data.length - T.nBytes (workNBlocks T n data))).length = T.blockSize := by
    have h_one : (1 : UInt32).toNat * T.backend.getBlockSize = T.blockSize := Nat.one_mul _
    rw [h_slice, List.length_append, List.length_drop, List.length_drop, Medium.length_slice,
      h_one]
    omega
  refine ⟨?_, ?_⟩
  · have h_write := writeBackend_medium hB h_range' (by simp [h_len]) h_ok
    rw [h_disk, h_write, h_disk', hB.read_medium, h_addr', h_bytes,
      List.take_of_length_le (by simp [h_len]), h_slice, h_addr, h_bytes,
      ← List.length_drop, Medium.store_append_slice]
  · rw [size, getSizeInBlocks, h_disk, writeBackend_size hB h_range', h_size']
    rfl

/-- **Immediate data that is stored**, on the medium: the data at the address of
the command, nothing else. -/
theorem storeImmediate_medium (hB : T.backend.Stores medium) (hlen : data.length < 2 ^ 24)
    (hin : lba.toNat + n.toNat ≤ s.size T) (hk : data.length ≤ T.nBytes n)
    (hok : (s.storeImmediate T lba n data).1 = .ok) :
    medium (s.storeImmediate T lba n data).2.disk =
        (medium s.disk).store (lba.toNat * T.blockSize) data ∧
      (s.storeImmediate T lba n data).2.size T = s.size T := by
  have h_work := @workBytes_le _ T n data
  unfold storeImmediate at hok ⊢
  dsimp only at hok ⊢
  split at hok
  · next h =>
    rw [if_pos h]
    obtain ⟨h_med₁, h_size₁⟩ := storeBlocks_medium hB hlen hin h.1
    obtain ⟨h_med₂, h_size₂⟩ :=
      storeFragment_medium hB hlen (by rw [h_size₁]; exact hin) hk h.2.1 h.2.2 hok
    refine ⟨?_, by rw [h_size₂, h_size₁]⟩
    have h_len : (data.take (T.nBytes (workNBlocks T n data))).length =
        T.nBytes (workNBlocks T n data) := by simp; omega
    conv_rhs => rw [← List.take_append_drop (T.nBytes (workNBlocks T n data)) data]
    rw [h_med₂, h_med₁, Medium.store_append, h_len]
  · next h =>
    rw [if_neg h]
    obtain ⟨h_med, h_size⟩ := storeBlocks_medium hB hlen hin hok
    refine ⟨?_, h_size⟩
    -- nothing is left behind the whole blocks
    have h_all : data.length ≤ T.nBytes (workNBlocks T n data) := by
      by_contra hlt
      exact h ⟨hok, fragment_of_ge (n := n) hlen
        (p := T.nBytes (workNBlocks T n data)) (by omega) (le_refl _)⟩
    rw [h_med, List.take_of_length_le h_all]

end Scsi

end IscsiTarget
