import IscsiTarget.Model.FileBackend

/-!
# COMPARE AND WRITE in the file backend

What `cmpwrite` has compared must not change before it writes. It locks its whole range,
so this depends on what the other functions lock: `SharesIndex` says for which of them the
locks meet (`guarded_iff`), and as long as threads keep to those, everything a thread has
compared is still what it was compared with, in every reachable state (`Isolated`,
`isolated_of_run`).

A `write` of several blocks locks the first one only, and on Linux `trim` locks nothing.
-/

namespace IscsiTarget

open LockedSections

/-! ### Ranges -/

/-- The range a function is given, as a first block and a number of blocks. -/
def FileOp.range : FileOp → UInt64 × UInt32
  | .write blockNr nBlocks _ => (blockNr, nBlocks)
  | .trim blockNr nBlocks => (blockNr, nBlocks)
  | .read blockNr nBlocks => (blockNr, nBlocks)
  | .cmpwrite blockNr nBlocks _ _ => (blockNr, nBlocks)

/-- The range a section is about. It is not always the range that is locked:
`write` locks its first block only, and a hole is punched without a lock. -/
def FileSection.range : FileSection → UInt64 × UInt32
  | .write blockNr nBlocks _ => (blockNr, nBlocks)
  | .punchHole blockNr nBlocks => (blockNr, nBlocks)
  | .read blockNr nBlocks => (blockNr, nBlocks)
  | .cmpwrite blockNr nBlocks _ _ => (blockNr, nBlocks)

namespace FilePlatform

variable (p : FilePlatform)

/-! ### Which locks meet -/

/-- Whenever the function does I/O on a block of the range, it holds a lock that
`cmpwrite` holds for the range. -/
def Guarded (r : UInt64 × UInt32) (o : FileOp) : Prop :=
  ∀ sec ∈ p.sections o, Overlap r sec.range →
    ∃ nr ∈ (p.ioLocks r.1 r.2).toList, nr ∈ (p.locks sec).toList

/-- The functions that do: on MinGW all of them; elsewhere, where ranges are
locked at all, `cmpwrite` and `read`, `trim` if it writes block after block, and
a `write` whose first block has the lock index of a block of the range. -/
def SharesIndex (r : UInt64 × UInt32) (o : FileOp) : Prop :=
  p.os = .mingw ∨
    (p.build.rangeLocks = true ∧ r.1.toNat + r.2.toNat < 2 ^ 64 ∧
      match o with
      | .write blockNr _ _ => blockNr.toNat + 1 < 2 ^ 64 ∧
        ∃ j : ℕ, Covers r j ∧ p.build.lockIndex (UInt64.ofNat j) = p.build.lockIndex blockNr
      | .trim _ _ => p.os ≠ .linux
      | .read blockNr nBlocks => blockNr.toNat + nBlocks.toNat < 2 ^ 64
      | .cmpwrite blockNr nBlocks _ _ => blockNr.toNat + nBlocks.toNat < 2 ^ 64)

variable {p}

/-- The lock of two ranges, where there is no `io_lock`: two blocks of them
share an index, and neither range wraps around. -/
theorem common_ioLock_iff (hos : p.os ≠ .mingw) (r r' : UInt64 × UInt32) :
    (∃ nr ∈ (p.ioLocks r.1 r.2).toList, nr ∈ (p.ioLocks r'.1 r'.2).toList) ↔
      p.build.rangeLocks = true ∧ r.1.toNat + r.2.toNat < 2 ^ 64 ∧
        r'.1.toNat + r'.2.toNat < 2 ^ 64 ∧ ∃ j j', Covers r j ∧ Covers r' j' ∧
          p.build.lockIndex (UInt64.ofNat j) = p.build.lockIndex (UInt64.ofNat j') := by
  simp only [ioLocks, if_neg hos, List.mem_map, Build.mem_lockRange]
  constructor
  · -- a lock of both is the lock of a block in each of them
    rintro ⟨_, ⟨nr, ⟨h_on, h_end, j, h_le, h_lt, rfl⟩, rfl⟩, nr',
      ⟨-, h_end', j', h_le', h_lt', rfl⟩,
      h_eq⟩
    exact ⟨h_on, h_end, h_end', j, j', ⟨h_le, h_lt⟩, ⟨h_le', h_lt'⟩,
      (WithTop.coe_injective h_eq).symm⟩
  · -- and two blocks with one lock give it to both
    rintro ⟨h_on, h_end, h_end', j, j', ⟨h_le, h_lt⟩, ⟨h_le', h_lt'⟩, h_eq⟩
    exact ⟨_, ⟨_, ⟨h_on, h_end, j, h_le, h_lt, rfl⟩, rfl⟩, _, ⟨h_on, h_end', j', h_le', h_lt', rfl⟩,
      by rw [h_eq]⟩

/-- On MinGW there is one lock for all. -/
theorem common_ioLock_of_mingw (hos : p.os = .mingw) (r r' : UInt64 × UInt32) :
    ∃ nr ∈ (p.ioLocks r.1 r.2).toList, nr ∈ (p.ioLocks r'.1 r'.2).toList := by
  refine ⟨⊤, ?_, ?_⟩ <;> simp [ioLocks, hos]

/-- Ranges that overlap have a lock in common unless one of them wraps around. -/
theorem common_ioLock_of_overlap (hos : p.os ≠ .mingw) {r r' : UInt64 × UInt32}
    (h : Overlap r r') :
    (∃ nr ∈ (p.ioLocks r.1 r.2).toList, nr ∈ (p.ioLocks r'.1 r'.2).toList) ↔
      p.build.rangeLocks = true ∧ r.1.toNat + r.2.toNat < 2 ^ 64 ∧
        r'.1.toNat + r'.2.toNat < 2 ^ 64 := by
  rw [common_ioLock_iff hos]
  obtain ⟨j, hj, hj'⟩ := h
  exact ⟨fun h => ⟨h.1, h.2.1, h.2.2.1⟩, fun h => ⟨h.1, h.2.1, h.2.2, j, j, hj, hj', rfl⟩⟩

/-- `trim` punches one hole, or writes block after block. -/
theorem mem_sections_trim {blockNr : UInt64} {nBlocks : UInt32} {sec : FileSection} :
    sec ∈ p.sections (.trim blockNr nBlocks) ↔
      (p.os = .linux ∧ sec = .punchHole blockNr nBlocks) ∨
        (p.os ≠ .linux ∧ ∃ i < nBlocks.toNat,
          sec = .write (blockNr + UInt64.ofNat i) 1 (List.replicate p.blockSize 0)) := by
  by_cases h : p.os = .linux
  · simp [sections, h]
  · simp [sections, h, eq_comm]

/-- A write of one block inside the range. -/
theorem common_ioLock_of_covers (hos : p.os ≠ .mingw) {r : UInt64 × UInt32} {blockNr : UInt64}
    (hon : p.build.rangeLocks = true) (hend : r.1.toNat + r.2.toNat < 2 ^ 64)
    (h : Overlap r (blockNr, 1)) :
    ∃ nr ∈ (p.ioLocks r.1 r.2).toList, nr ∈ (p.ioLocks blockNr 1).toList := by
  refine (common_ioLock_of_overlap hos h).mpr ⟨hon, hend, ?_⟩
  obtain ⟨j, ⟨-, h_lt⟩, h_le, h_lt'⟩ := h
  have h_one : (1 : UInt32).toNat = 1 := rfl
  simp only [h_one] at h_lt' h_le ⊢
  omega

/-- The block that a `trim` without `fallocate` writes at its turn `i`. -/
theorem overlap_trim_section {r : UInt64 × UInt32} {blockNr : UInt64} {nBlocks : UInt32}
    (h : Overlap r (blockNr, nBlocks)) :
    ∃ i < nBlocks.toNat, Overlap r (blockNr + UInt64.ofNat i, 1) := by
  obtain ⟨j, h_r, ⟨h_le, h_lt⟩, h_64⟩ := h.exists_lt
  simp only at h_le h_lt
  have h_j : (blockNr + UInt64.ofNat (j - blockNr.toNat)).toNat = j := by
    rw [UInt64.toNat_add, UInt64.toNat_ofNat']
    omega
  refine ⟨j - blockNr.toNat, by omega, j, h_r, ?_, ?_⟩
  · rw [h_j]
  · rw [h_j]
    exact Nat.lt_succ_self j

/-- **The locks meet exactly for the functions of `SharesIndex`.** The platforms
are gone through, since each of them has locks of its own. -/
theorem guarded_iff {r : UInt64 × UInt32} {o : FileOp} (h : Overlap r o.range) :
    p.Guarded r o ↔ p.SharesIndex r o := by
  by_cases hos : p.os = .mingw
  · -- one lock for all
    refine iff_of_true (fun sec hsec _ => ?_) (.inl hos)
    cases o with
    | write blockNr nBlocks data =>
      obtain rfl := List.mem_singleton.mp hsec
      exact common_ioLock_of_mingw hos r (blockNr, 1)
    | trim blockNr nBlocks =>
      rcases mem_sections_trim.mp hsec with ⟨h_linux, -⟩ | ⟨-, i, -, rfl⟩
      · exact absurd (hos.symm.trans h_linux) (by decide)
      · exact common_ioLock_of_mingw hos r (_, 1)
    | read blockNr nBlocks =>
      obtain rfl := List.mem_singleton.mp hsec
      exact common_ioLock_of_mingw hos r (blockNr, nBlocks)
    | cmpwrite blockNr nBlocks dataWrite dataCompare =>
      obtain rfl := List.mem_singleton.mp hsec
      exact common_ioLock_of_mingw hos r (blockNr, nBlocks)
  -- elsewhere the locks are those of `lock_range`, for the range that is locked
  unfold SharesIndex
  rw [or_iff_right hos]
  cases o with
  | write blockNr nBlocks data =>
    have h_one : (1 : UInt32).toNat = 1 := rfl
    -- `write` locks its first block only
    have h_single : p.Guarded r (.write blockNr nBlocks data) ↔
        ∃ nr ∈ (p.ioLocks r.1 r.2).toList, nr ∈ (p.ioLocks blockNr 1).toList := by
      refine ⟨fun hg => hg _ (List.mem_singleton_self _) h, fun hc sec hsec _ => ?_⟩
      obtain rfl := List.mem_singleton.mp hsec
      exact hc
    rw [h_single, common_ioLock_iff hos r (blockNr, 1)]
    simp only [h_one]
    refine and_congr_right fun _ => and_congr_right fun _ => and_congr_right fun _ => ?_
    constructor
    · rintro ⟨j, j', h_j, ⟨h_le, h_lt⟩, h_eq⟩
      obtain rfl : j' = blockNr.toNat := by
        simp only [h_one] at h_le h_lt
        omega
      rw [UInt64.ofNat_toNat] at h_eq
      exact ⟨j, h_j, h_eq⟩
    · rintro ⟨j, h_j, h_eq⟩
      refine ⟨j, blockNr.toNat, h_j, ⟨le_rfl, Nat.lt_succ_self _⟩, ?_⟩
      rwa [UInt64.ofNat_toNat]
  | trim blockNr nBlocks =>
    constructor
    · intro hg
      by_cases hlinux : p.os = .linux
      · -- the hole is punched without a lock
        obtain ⟨nr, -, h_nr⟩ := hg _ (mem_sections_trim.mpr (.inl ⟨hlinux, rfl⟩)) h
        exact absurd h_nr List.not_mem_nil
      · -- one of its writes meets the range, and holds the lock of its block
        obtain ⟨i, h_i, h_overlap⟩ := overlap_trim_section h
        have h_common := hg _ (mem_sections_trim.mpr (.inr ⟨hlinux, i, h_i, rfl⟩)) h_overlap
        obtain ⟨h_on, h_end, -⟩ := (common_ioLock_of_overlap hos h_overlap).mp h_common
        exact ⟨h_on, h_end, hlinux⟩
    · rintro ⟨h_on, h_end, h_other⟩ sec hsec h_overlap
      rcases mem_sections_trim.mp hsec with ⟨h_linux, -⟩ | ⟨-, i, -, rfl⟩
      · exact absurd h_linux h_other
      · exact common_ioLock_of_covers hos h_on h_end h_overlap
  | read blockNr nBlocks =>
    refine Iff.trans ?_ (common_ioLock_of_overlap hos h)
    refine ⟨fun hg => hg _ (List.mem_singleton_self _) h, fun hc sec hsec _ => ?_⟩
    obtain rfl := List.mem_singleton.mp hsec
    exact hc
  | cmpwrite blockNr nBlocks dataWrite dataCompare =>
    refine Iff.trans ?_ (common_ioLock_of_overlap hos h)
    refine ⟨fun hg => hg _ (List.mem_singleton_self _) h, fun hc sec hsec _ => ?_⟩
    obtain rfl := List.mem_singleton.mp hsec
    exact hc

end FilePlatform

/-! ### What a system call changes -/

/-- The function changes the file. -/
def FileOp.Modifies : FileOp → Prop
  | .read _ _ => False
  | _ => True

/-- The section changes the file. -/
def FileSection.Modifies : FileSection → Prop
  | .read _ _ => False
  | _ => True

namespace FilePlatform

variable (p : FilePlatform)

/-- The range lies below the largest offset a file can have. -/
def Addressable (r : UInt64 × UInt32) : Prop := (r.1.toNat + r.2.toNat) * p.blockSize < 2 ^ 63

variable {p}

theorem Addressable.lt {r : UInt64 × UInt32} (h : p.Addressable r) :
    r.1.toNat + r.2.toNat < 2 ^ 63 :=
  (Nat.le_mul_of_pos_right _ p.blockSize_pos).trans_lt h

theorem offset_eq {blockNr : UInt64} (h : blockNr.toNat * p.blockSize < 2 ^ 64) :
    p.offset blockNr = blockNr.toNat * p.blockSize := by
  have h_bs : (UInt64.ofNat p.blockSize).toNat = p.blockSize := by
    unfold blockSize
    split <;> rfl
  rw [offset, UInt64.toNat_mul, h_bs]
  exact Nat.mod_eq_of_lt h

theorem Addressable.offset_eq {r : UInt64 × UInt32} (h : p.Addressable r) :
    p.offset r.1 = r.1.toNat * p.blockSize := by
  refine FilePlatform.offset_eq (lt_of_le_of_lt ?_ (h.trans (by norm_num)))
  exact Nat.mul_le_mul_right _ (Nat.le_add_right _ _)

theorem pwrite_frame {rc rc' : Option ℕ} {data : Bytes} {nBytes off x : ℕ}
    {file file' : Medium UInt8} (h : pwrite rc data nBytes off file = some (rc', file'))
    (hx : x < off ∨ off + nBytes ≤ x) : file' x = file x := by
  unfold pwrite at h
  split at h
  · -- the call fails and writes nothing
    obtain ⟨-, rfl⟩ := Prod.mk.inj (Option.some.inj h)
    rfl
  · split at h
    · next k hk =>
      obtain ⟨-, rfl⟩ := Prod.mk.inj (Option.some.inj h)
      -- it writes `k` bytes, which is no more than it was given
      refine Medium.store_apply_of_notMem ?_
      rw [List.length_take]
      omega
    · exact nomatch h

/-- **A system call changes nothing outside the range of its section.** A write
may move fewer bytes than it was asked for, but they lie at the beginning of its
range. -/
theorem act_frame {rc : Option ℕ} {sec : FileSection} {w w' : FileWork}
    {file file' : Medium UInt8} (h : p.act rc sec w file = some (w', file'))
    (haddr : p.Addressable sec.range) {x : ℕ} (hx : sec.Modifies →
      ∀ j, Covers sec.range j → ¬ (j * p.blockSize ≤ x ∧ x < (j + 1) * p.blockSize)) :
    file' x = file x := by
  have h_off := haddr.offset_eq
  -- outside the range, in bytes
  have h_out (hm : sec.Modifies) : x < p.offset sec.range.1 ∨
      p.offset sec.range.1 + sec.range.2.toNat * p.blockSize ≤ x := by
    rw [h_off, ← Nat.add_mul]
    exact outside_of_notCovers p.blockSize_pos (hx hm)
  cases w with
  | done ok => cases sec <;> exact nomatch h
  | compared result => cases sec <;> exact nomatch h
  | turn i =>
    cases sec with
    | write blockNr nBlocks data =>
      obtain ⟨⟨rc', file''⟩, h_write, h_eq⟩ := Option.map_eq_some_iff.mp h
      obtain ⟨-, rfl⟩ := Prod.mk.inj h_eq
      exact pwrite_frame h_write (h_out trivial)
    | punchHole blockNr nBlocks =>
      simp only [act] at h
      split at h
      · obtain ⟨-, rfl⟩ := Prod.mk.inj (Option.some.inj h)
        rfl
      · split at h
        · obtain ⟨-, rfl⟩ := Prod.mk.inj (Option.some.inj h)
          exact Medium.clear_apply_of_notMem (h_out trivial)
        · exact nomatch h
    | read blockNr nBlocks =>
      simp only [act] at h
      split at h
      · obtain ⟨-, rfl⟩ := Prod.mk.inj (Option.some.inj h)
        rfl
      · split at h
        · obtain ⟨-, rfl⟩ := Prod.mk.inj (Option.some.inj h)
          rfl
        · exact nomatch h
    | cmpwrite blockNr nBlocks dataWrite dataCompare =>
      simp only [act] at h
      split at h
      · split at h
        · split at h
          · obtain ⟨-, rfl⟩ := Prod.mk.inj (Option.some.inj h)
            rfl
          · obtain ⟨-, rfl⟩ := Prod.mk.inj (Option.some.inj h)
            rfl
        · obtain ⟨-, rfl⟩ := Prod.mk.inj (Option.some.inj h)
          rfl
      · obtain ⟨⟨rc', file''⟩, h_write, h_eq⟩ := Option.map_eq_some_iff.mp h
        obtain ⟨-, rfl⟩ := Prod.mk.inj h_eq
        exact pwrite_frame h_write (h_out trivial)

/-- **A turn of the loop of `cmpwrite`**: only a block that compares equal takes
it on. It is the other half of what a step can do. -/
theorem act_cmpwrite_turn {rc : Option ℕ} {blockNr : UInt64} {nBlocks : UInt32}
    {dataWrite dataCompare : Bytes} {w : FileWork} {i' : ℕ} {file file' : Medium UInt8}
    (h : p.act rc (.cmpwrite blockNr nBlocks dataWrite dataCompare) w file =
      some (.turn i', file')) :
    ∃ i, w = .turn i ∧ i' = i + 1 ∧ i < nBlocks.toNat ∧ file' = file ∧
      file.slice (p.offset (blockNr + UInt64.ofNat i)) p.blockSize =
        (dataCompare.drop (i * p.blockSize)).take p.blockSize := by
  cases w with
  | done ok => exact nomatch h
  | compared result => exact nomatch h
  | turn i =>
    simp only [act] at h
    -- the loop has a block left, the call reads all of it, and it compares equal
    split at h
    · next hi =>
      split at h
      · split at h
        · next heq =>
          obtain ⟨h_w, rfl⟩ := Prod.mk.inj (Option.some.inj h)
          exact ⟨i, rfl, (FileWork.turn.inj h_w).symm, hi, rfl, heq⟩
        · exact nomatch (Prod.mk.inj (Option.some.inj h)).1
      · exact nomatch (Prod.mk.inj (Option.some.inj h)).1
    · -- after the last block it writes, and there is no next turn
      obtain ⟨_, -, h_eq⟩ := Option.map_eq_some_iff.mp h
      exact nomatch (Prod.mk.inj h_eq).1

/-! ### Runs -/

/-- What `cmpwrite` has compared so far is still on the file, in every thread.
It is what the locks are there for, and a write to one of those blocks in
between would break it. -/
def Isolated (p : FilePlatform) {Θ : Type}
    (s : State Θ p.Lock FileSection FileWork (Medium UInt8)) : Prop :=
  ∀ t blockNr nBlocks dataWrite dataCompare held i,
    s.phase t = .working (.cmpwrite blockNr nBlocks dataWrite dataCompare) held (.turn i) →
    i ≤ nBlocks.toNat ∧ ∀ k < i,
      s.shared.slice ((blockNr.toNat + k) * p.blockSize) p.blockSize =
        (dataCompare.drop (k * p.blockSize)).take p.blockSize

/-- The functions the threads may call: their ranges lie inside a file, and what
changes a range that another thread compares shares a lock index with it. -/
structure Compatible (p : FilePlatform) {Θ : Type} (ops : Θ → FileOp → Prop) : Prop where
  addressable : ∀ t o, ops t o → p.Addressable o.range
  shares : ∀ t u, t ≠ u → ∀ blockNr nBlocks dataWrite dataCompare o,
    ops t (.cmpwrite blockNr nBlocks dataWrite dataCompare) → ops u o → o.Modifies →
    Overlap (blockNr, nBlocks) o.range → p.SharesIndex (blockNr, nBlocks) o

/-- A thread calls one of its functions. -/
def Calls (p : FilePlatform) {Θ : Type} (ops : Θ → FileOp → Prop) :
    Action Θ FileSection (Option ℕ) → Prop
  | .call t secs => ∃ o, ops t o ∧ secs = p.sections o
  | _ => True

/-- A section belongs to a function the thread may call. -/
def SectionOf (p : FilePlatform) {Θ : Type} (ops : Θ → FileOp → Prop) (t : Θ)
    (sec : FileSection) : Prop :=
  ∃ o, ops t o ∧ sec ∈ p.sections o

/-- The sections of a function stay inside its range, and change what it
changes. A trim may be a section for each block. -/
theorem range_of_section {o : FileOp} {sec : FileSection} (hsec : sec ∈ p.sections o)
    (haddr : p.Addressable o.range) :
    p.Addressable sec.range ∧ (∀ j, Covers sec.range j → Covers o.range j) ∧
      (sec.Modifies → o.Modifies) := by
  cases o with
  | write blockNr nBlocks data =>
    obtain rfl := List.mem_singleton.mp hsec
    exact ⟨haddr, fun _ h => h, fun h => h⟩
  | read blockNr nBlocks =>
    obtain rfl := List.mem_singleton.mp hsec
    exact ⟨haddr, fun _ h => h, fun h => h⟩
  | cmpwrite blockNr nBlocks dataWrite dataCompare =>
    obtain rfl := List.mem_singleton.mp hsec
    exact ⟨haddr, fun _ h => h, fun h => h⟩
  | trim blockNr nBlocks =>
    -- a trim is one section, or one for each block
    rcases mem_sections_trim.mp hsec with ⟨-, rfl⟩ | ⟨-, i, h_lt, rfl⟩
    · exact ⟨haddr, fun _ h => h, fun h => h⟩
    · -- the block of the turn is inside the range
      have h_end := haddr.lt
      simp only [FileOp.range] at h_end
      have h_block : (blockNr + UInt64.ofNat i).toNat = blockNr.toNat + i := by
        rw [UInt64.toNat_add, UInt64.toNat_ofNat']
        omega
      have h_one : (1 : UInt32).toNat = 1 := rfl
      refine ⟨?_, fun j hj => ?_, fun _ => trivial⟩
      · refine lt_of_le_of_lt (Nat.mul_le_mul_right _ ?_) haddr
        simp only [FileSection.range, FileOp.range, h_block, h_one]
        omega
      · simp only [Covers, FileSection.range, FileOp.range, h_block, h_one] at hj ⊢
        omega

section Run

variable {Θ : Type} {ops : Θ → FileOp → Prop}

/-- Two threads at work: what one of them changes, the other one is not
comparing. Otherwise they would hold a lock in common. -/
theorem notCovers_of_working (hops : p.Compatible ops)
    {s : State Θ p.Lock FileSection FileWork (Medium UInt8)} (hinv : Inv p.program s)
    (hsecs : SectionsOk (p.SectionOf ops) s) {t u : Θ} (htu : u ≠ t) {blockNr : UInt64}
    {nBlocks : UInt32} {dataWrite dataCompare : Bytes} {held held' : List p.Lock}
    {w w' : FileWork} {sec : FileSection}
    (ht : s.phase t = .working (.cmpwrite blockNr nBlocks dataWrite dataCompare) held w)
    (hu : s.phase u = .working sec held' w') (hm : sec.Modifies) {j : ℕ}
    (hj : Covers sec.range j) : ¬ Covers (blockNr, nBlocks) j := by
  intro hj'
  obtain ⟨o, h_o, h_mem⟩ := (hsecs t).2 _ (by rw [ht]; rfl)
  obtain ⟨o', h_o', h_mem'⟩ := (hsecs u).2 _ (by rw [hu]; rfl)
  -- the function behind a section of `cmpwrite` is `cmpwrite`
  obtain rfl : o = .cmpwrite blockNr nBlocks dataWrite dataCompare := by
    cases o with
    | cmpwrite b n dw dc =>
      obtain ⟨rfl, rfl, rfl, rfl⟩ := FileSection.cmpwrite.inj (List.mem_singleton.mp h_mem)
      rfl
    | write b n d => exact nomatch List.mem_singleton.mp h_mem
    | read b n => exact nomatch List.mem_singleton.mp h_mem
    | trim b n =>
      rcases mem_sections_trim.mp h_mem with ⟨-, h_eq⟩ | ⟨-, _, -, h_eq⟩ <;> exact nomatch h_eq
  obtain ⟨-, h_covers, h_modifies⟩ := range_of_section h_mem' (hops.addressable u o' h_o')
  have h_overlap : Overlap (blockNr, nBlocks) o'.range := ⟨j, hj', h_covers j hj⟩
  have h_guarded := (guarded_iff h_overlap).mpr
    (hops.shares t u htu.symm _ _ _ _ o' h_o h_o' (h_modifies hm) h_overlap)
  exact htu (hinv.eq_of_common_lock ht hu (h_guarded sec h_mem' ⟨j, hj', hj⟩)).symm

variable [DecidableEq Θ]

/-- **A system call keeps everything compared as it was.** For its own thread
the loop has compared another block; for the others it is outside their range. -/
theorem isolated_act (hops : p.Compatible ops)
    {s : State Θ p.Lock FileSection FileWork (Medium UInt8)} (hinv : Inv p.program s)
    (hsecs : SectionsOk (p.SectionOf ops) s) (hiso : p.Isolated s) {t : Θ} {rc : Option ℕ}
    {sec : FileSection} {held : List p.Lock} {w w' : FileWork} {file : Medium UInt8}
    (hphase : s.phase t = .working sec held w)
    (hact : p.act rc sec w s.shared = some (w', file)) :
    p.Isolated { s with
      phase := Function.update s.phase t (.working sec held w'), shared := file } := by
  intro u blockNr nBlocks dataWrite dataCompare held' i hu
  by_cases hut : u = t
  · -- the thread's own comparison goes on by one block
    subst hut
    simp only [Function.update_self, Phase.working.injEq] at hu
    obtain ⟨rfl, rfl, rfl⟩ := hu
    obtain ⟨i', rfl, rfl, h_lt, rfl, h_eq⟩ := act_cmpwrite_turn hact
    obtain ⟨-, h_done⟩ := hiso u _ _ _ _ _ _ hphase
    refine ⟨h_lt, fun k hk => ?_⟩
    rcases Nat.lt_succ_iff_lt_or_eq.mp hk with hk | rfl
    · exact h_done k hk
    · -- the offset of the block that has been read
      obtain ⟨o, h_o, h_mem⟩ := (hsecs u).2 _ (by rw [hphase]; rfl)
      have h_addr := (range_of_section h_mem (hops.addressable u o h_o)).1
      have h_end := h_addr.lt
      simp only [FileSection.range] at h_end
      have h_block : (blockNr + UInt64.ofNat k).toNat = blockNr.toNat + k := by
        rw [UInt64.toNat_add, UInt64.toNat_ofNat']
        omega
      rw [offset_eq, h_block] at h_eq
      · exact h_eq
      · rw [h_block]
        refine lt_of_le_of_lt (Nat.mul_le_mul_right _ ?_) (h_addr.trans (by norm_num))
        simp only [FileSection.range]
        omega
  · -- another thread compares: this one does not touch what it has compared
    simp only [Function.update_of_ne hut] at hu
    obtain ⟨h_le, h_done⟩ := hiso u _ _ _ _ _ _ hu
    refine ⟨h_le, fun k hk => ?_⟩
    rw [← h_done k hk]
    obtain ⟨o, h_o, h_mem⟩ := (hsecs t).2 _ (by rw [hphase]; rfl)
    -- the bytes of a block that was compared are under a lock of the thread that compared it
    have h_addr := (range_of_section h_mem (hops.addressable t o h_o)).1
    refine Medium.slice_congr fun x h_x h_x' => act_frame hact h_addr fun hm j hj hjx => ?_
    obtain rfl : j = blockNr.toNat + k := by
      have h_bs := p.blockSize_pos
      refine Nat.le_antisymm ?_ ?_
      · refine Nat.le_of_lt_succ (Nat.lt_of_mul_lt_mul_right (a := p.blockSize) ?_)
        rw [Nat.succ_mul]
        omega
      · refine Nat.le_of_lt_succ (Nat.lt_of_mul_lt_mul_right (a := p.blockSize) ?_)
        exact h_x.trans_lt hjx.2
    exact notCovers_of_working hops hinv hsecs (Ne.symm hut) hu hphase hm hj
      ⟨Nat.le_add_right _ _, by simp only; omega⟩

/-- **Every step keeps everything compared as it was.** Only a system call
changes the file, and the other steps change no loop. -/
theorem isolated_step (hops : p.Compatible ops)
    {s s' : State Θ p.Lock FileSection FileWork (Medium UInt8)}
    {a : Action Θ FileSection (Option ℕ)} (hinv : Inv p.program s)
    (hsecs : SectionsOk (p.SectionOf ops) s) (hiso : p.Isolated s)
    (hstep : step p.program s a = .ok s') : p.Isolated s' := by
  -- a step that starts no comparison and leaves the file as it is
  have h_other {t : Θ} {ph : Phase p.Lock FileSection FileWork} (owner : p.Lock → Option Θ)
      (queue : Θ → List FileSection)
      (hph : ∀ sec held i, ph = .working sec held (.turn i) → i = 0) :
      p.Isolated { owner := owner, phase := Function.update s.phase t ph, queue := queue,
                   shared := s.shared } := by
    intro u blockNr nBlocks dataWrite dataCompare held i hu
    by_cases hut : u = t
    · subst hut
      simp only [Function.update_self] at hu
      obtain rfl := hph _ _ _ hu
      exact ⟨Nat.zero_le _, fun k hk => absurd hk (Nat.not_lt_zero k)⟩
    · simp only [Function.update_of_ne hut] at hu
      exact hiso u _ _ _ _ _ _ hu
  cases steps_of_step hstep with
  | call hphase hqueue => exact hiso
  | env henv => exact nomatch henv
  | act hphase hact => exact isolated_act hops hinv hsecs hiso hphase hact
  | begin hphase hqueue => exact h_other _ _ (fun _ _ _ h => nomatch h)
  | lock hphase hfree => exact h_other _ _ (fun _ _ _ h => nomatch h)
  | enter hphase =>
    refine h_other _ _ fun sec held i h => ?_
    simp only [program, Phase.working.injEq, FileWork.turn.injEq] at h
    exact h.2.2.symm
  | finish hphase hdone => exact h_other _ _ (fun _ _ _ h => nomatch h)
  | unlock hphase => exact h_other _ _ (fun _ _ _ h => nomatch h)
  | leave hphase => exact h_other _ _ (fun _ _ _ h => nomatch h)

/-- Everything compared is still the same in every reachable state. By induction
over the run, together with the two invariants of the locks. -/
theorem isolated_of_run (hops : p.Compatible ops) {file : Medium UInt8}
    {as : List (Action Θ FileSection (Option ℕ))}
    {s : State Θ p.Lock FileSection FileWork (Medium UInt8)} (has : ∀ a ∈ as, p.Calls ops a)
    (hrun : Machine.run (step p.program) { shared := file } as = .ok s) : p.Isolated s := by
  have h_inv := Machine.run_induction (P := fun _ a => p.Calls ops a)
    (I := fun s => Inv p.program s ∧ SectionsOk (p.SectionOf ops) s ∧ p.Isolated s)
    (fun s a s' ⟨hinv, hsecs, hiso⟩ hcall hstep => ?_) as _ s ?_ ?_ hrun
  · exact h_inv.2.2
  · -- the three parts of the invariant, each by its own step lemma
    refine ⟨inv_step hinv hstep, sectionsOk_step hsecs ?_ hstep,
      isolated_step hops hinv hsecs hiso hstep⟩
    cases a with
    | call t secs =>
      -- a call adds the sections of its function
      obtain ⟨o, h_o, rfl⟩ := hcall
      exact fun sec hsec => ⟨o, h_o, hsec⟩
    | _ => trivial
  · exact ⟨inv_init _ _, sectionsOk_init _ _, fun _ _ _ _ _ _ _ h => nomatch h⟩
  · exact ((Machine.along_of_forall (fun _ _ => trivial) _ as).and_mem has).mono
      fun _ _ h => h.2

end Run

/-- **COMPARE AND WRITE isolation.** The locks meet exactly for the functions of
`SharesIndex`; and when all functions that threads call are of that kind
wherever they overlap a `cmpwrite` of another thread, nothing that `cmpwrite`
has compared changes before it writes. -/
theorem cmpwrite_isolation (p : FilePlatform) :
    (∀ (r : UInt64 × UInt32) (o : FileOp), Overlap r o.range →
      (p.Guarded r o ↔ p.SharesIndex r o)) ∧
    (∀ (Θ : Type) [DecidableEq Θ] (ops : Θ → FileOp → Prop), p.Compatible ops →
      ∀ (file : Medium UInt8) (as : List (Action Θ FileSection (Option ℕ)))
        (s : State Θ p.Lock FileSection FileWork (Medium UInt8)), (∀ a ∈ as, p.Calls ops a) →
        Machine.run (step p.program) { shared := file } as = .ok s → p.Isolated s) :=
  ⟨fun _ _ h => guarded_iff h, fun _ _ _ hops _ _ _ has hrun => isolated_of_run hops has hrun⟩

end FilePlatform

/-! ### Two threads on Linux -/

namespace Sample

attribute [local instance] neZero_two

/-- A host with Linux. -/
def linux : FilePlatform := { build := .posix, os := .linux }

/-- The lock of block 1. -/
def lockOne : linux.Lock := WithTop.some (linux.build.lockIndex 1)

theorem ioLocks_one : (linux.ioLocks 1 1).toList = [lockOne] := by decide +kernel

/-- A block of 4096 equal bytes. -/
def fileBlock (v : UInt8) : Bytes := List.replicate linux.blockSize v

/-- COMPARE AND WRITE of block 1, which is to hold zeros. -/
def compareOne : FileSection := .cmpwrite 1 1 (fileBlock 1) (fileBlock 0)

/-- Thread 0 compares block 1, thread 1 writes. -/
def compareAnd (blockNr : UInt64) (nBlocks : UInt32) (data : Bytes) (t : Fin 2) (o : FileOp) :
    Prop :=
  (t = 0 ∧ o = .cmpwrite 1 1 (fileBlock 1) (fileBlock 0)) ∨
    (t = 1 ∧ o = .write blockNr nBlocks data)

/-- Thread 0 has compared its block, and thread 1 is going to take its lock. -/
def beforeWrite (blockNr : UInt64) (nBlocks : UInt32) (data : Bytes) :
    List (Action (Fin 2) FileSection (Option ℕ)) :=
  [.call 0 [compareOne], .begin 0, .lock 0, .enter 0] ++
    [.act 0 (some linux.blockSize), .call 1 [.write blockNr nBlocks data], .begin 1]

theorem calls_beforeWrite (blockNr : UInt64) (nBlocks : UInt32) (data : Bytes) :
    ∀ a ∈ beforeWrite blockNr nBlocks data, linux.Calls (compareAnd blockNr nBlocks data) a := by
  intro a ha
  simp only [beforeWrite, List.cons_append, List.nil_append, List.mem_cons, List.not_mem_nil,
    or_false] at ha
  rcases ha with rfl | rfl | rfl | rfl | rfl | rfl | rfl
  · exact ⟨_, .inl ⟨rfl, rfl⟩, rfl⟩
  · trivial
  · trivial
  · trivial
  · trivial
  · exact ⟨_, .inr ⟨rfl, rfl⟩, rfl⟩
  · trivial

/-- A write to the block itself shares its lock, so that it waits for the
compare-and-write. -/
theorem compatible_sameBlock (data : Bytes) : linux.Compatible (compareAnd 1 1 data) where
  addressable := by
    rintro t o (⟨-, rfl⟩ | ⟨-, rfl⟩)
    · change (1 + 1) * 4096 < 2 ^ 63
      norm_num
    · change (1 + 1) * 4096 < 2 ^ 63
      norm_num
  shares := by
    rintro t u htu blockNr nBlocks dataWrite dataCompare o (⟨rfl, h⟩ | ⟨-, h⟩) hu - -
    swap
    · exact nomatch h
    obtain ⟨rfl, rfl, -, -⟩ := FileOp.cmpwrite.inj h
    -- the write to block 1 has the lock of block 1, as `cmpwrite` has
    rcases hu with ⟨rfl, -⟩ | ⟨-, rfl⟩
    · exact absurd rfl htu
    · exact .inr ⟨rfl, by decide +kernel, by decide +kernel, 1, ⟨by decide, by decide⟩, rfl⟩

/-- Block 1 compares equal. -/
theorem act_compareOne :
    linux.program.act (some linux.blockSize) compareOne (linux.program.start compareOne)
      (fun _ => 0) = some (.turn 1, fun _ => 0) := by
  have h_same : Medium.slice (fun _ => (0 : UInt8)) (linux.offset (1 + UInt64.ofNat 0))
      linux.blockSize = ((fileBlock 0).drop (0 * linux.blockSize)).take linux.blockSize := by
    simp [Medium.slice, fileBlock]
  have h_turn : (0 : ℕ) < (1 : UInt32).toNat := by decide
  simp only [FilePlatform.program, FilePlatform.act, compareOne, h_same, h_turn, if_true]

/-- Thread 0 at work, thread 1 about to take the lock of its write. Both have
been called, and what they do next depends on the locks. -/
theorem run_beforeWrite (blockNr : UInt64) (nBlocks : UInt32) (data : Bytes) :
    ∃ s, Machine.run (step linux.program) { shared := fun _ => 0 }
        (beforeWrite blockNr nBlocks data) = .ok s ∧
      s.phase 0 = .working compareOne [lockOne] (.turn 1) ∧
      s.phase 1 = .taking (.write blockNr nBlocks data) [] (linux.ioLocks blockNr 1).toList ∧
      s.owner = Function.update (fun _ => none) lockOne (some 0) ∧ s.shared = fun _ => 0 := by
  have h_locks : (linux.program.locks compareOne).toList = [lockOne] := ioLocks_one
  -- thread 0 has taken its lock
  obtain ⟨s, h_run, h_zero, h_one, h_queue, h_owner, h_shared⟩ : ∃ s,
      Machine.run (step linux.program) { shared := fun _ => 0 }
        [.call (0 : Fin 2) [compareOne], .begin 0, .lock 0, .enter 0] = .ok s ∧
      s.phase 0 = .working compareOne [lockOne] (linux.program.start compareOne) ∧
      s.phase 1 = .idle ∧ s.queue 1 = [] ∧
      s.owner = Function.update (fun _ => none) lockOne (some 0) ∧ s.shared = fun _ => 0 :=
    ⟨_, (Machine.run_cons_ok (step_of_steps (.call rfl rfl))).trans <|
      (Machine.run_cons_ok (step_of_steps (.begin rfl rfl))).trans <|
      (Machine.run_cons_ok (step_of_steps
        (.lock (congrArg (Phase.taking compareOne []) h_locks) rfl))).trans <|
      Machine.run_cons_ok (step_of_steps (.enter rfl)), rfl, rfl, rfl, rfl, rfl⟩
  have h_act := act_compareOne
  rw [← h_shared] at h_act
  refine ⟨_, Machine.run_append_eq_ok.mpr ⟨s, h_run,
    (Machine.run_cons_ok (step_of_steps (.act h_zero h_act))).trans <|
    (Machine.run_cons_ok (step_of_steps (.call (by exact h_one) (by exact h_queue)))).trans <|
    Machine.run_cons_ok (step_of_steps (.begin (by exact h_one) (by rfl)))⟩, ?_, ?_, ?_, ?_⟩
  · rfl
  · rfl
  · exact h_owner
  · exact h_shared

end Sample

open Sample in
/-- The write of two blocks of ones, once it has its lock. -/
theorem act_writeTwo (file : Medium UInt8) :
    linux.program.act (some (2 * linux.blockSize)) (.write 0 2 (fileBlock 1 ++ fileBlock 1))
      (.turn 0) file = some (.done true, file.store 0 (fileBlock 1 ++ fileBlock 1)) := by
  have h_room : 2 * linux.blockSize ≤ (2 : UInt32).toNat * linux.blockSize ∧
      linux.offset 0 + 2 * linux.blockSize < 2 ^ 63 := by decide +kernel
  have h_take : (fileBlock 1 ++ fileBlock 1).take (2 * linux.blockSize) =
      fileBlock 1 ++ fileBlock 1 := by
    refine List.take_of_length_le ?_
    simp only [fileBlock, List.length_append, List.length_replicate]
    omega
  simp only [FilePlatform.program, FilePlatform.act, pwrite, if_pos h_room, h_take]
  rfl

open Sample in
/-- A write to the block that is compared has to wait. -/
theorem FilePlatform.cmpwrite_isolation_sameBlock :
    ∃ s, Machine.run (step linux.program) { shared := fun _ => 0 }
        (beforeWrite 1 1 (fileBlock 1)) = .ok s ∧ s.Waits 1 0 ∧ linux.Isolated s := by
  obtain ⟨s, h_run, -, h_one, h_owner, -⟩ := run_beforeWrite 1 1 (fileBlock 1)
  refine ⟨s, h_run, ⟨lockOne, ?_, ?_⟩, (FilePlatform.cmpwrite_isolation linux).2 _ _
    (compatible_sameBlock _) _ _ _ (calls_beforeWrite 1 1 _) h_run⟩
  · rw [h_one, ioLocks_one]
    rfl
  · rw [h_owner, Function.update_self]

open Sample in
/-- A write of two blocks locks the first one only, and changes the second one
between its comparison and the write. -/
theorem FilePlatform.cmpwrite_isolation_fails :
    ¬ linux.Guarded (1, 1) (.write 0 2 (fileBlock 1 ++ fileBlock 1)) ∧
      ∃ s, Machine.run (step linux.program) { shared := fun _ => 0 }
          (beforeWrite 0 2 (fileBlock 1 ++ fileBlock 1) ++
            [.lock 1, .enter 1, .act 1 (some (2 * linux.blockSize))]) = .ok s ∧
        ¬ linux.Isolated s := by
  constructor
  · intro h
    exact absurd (h (.write 0 2 (fileBlock 1 ++ fileBlock 1)) (List.mem_singleton_self _)
      ⟨1, ⟨by decide, by decide⟩, by decide, by decide⟩) (by decide +kernel)
  · obtain ⟨s, h_run, h_zero, h_one, h_owner, h_shared⟩ :=
      run_beforeWrite 0 2 (fileBlock 1 ++ fileBlock 1)
    have h_locks : (linux.ioLocks 0 1).toList = [WithTop.some (linux.build.lockIndex 0)] := by
      decide +kernel
    rw [h_locks] at h_one
    -- the lock of block 0 is free
    have h_free : s.owner (WithTop.some (linux.build.lockIndex 0)) = none := by
      rw [h_owner, Function.update_of_ne (by decide +kernel)]
    refine ⟨_, Machine.run_append_eq_ok.mpr ⟨s, h_run,
      (Machine.run_cons_ok (step_of_steps (.lock (by exact h_one) h_free))).trans <|
      (Machine.run_cons_ok (step_of_steps (.enter (by rfl)))).trans <|
      Machine.run_cons_ok (step_of_steps (.act (by rfl) (act_writeTwo _)))⟩, fun hiso => ?_⟩
    have h_same := (hiso 0 _ _ _ _ _ _ h_zero).2 0 Nat.one_pos
    -- the first byte of block 1
    have h_bs := linux.blockSize_pos
    have h_first := congrArg (fun l => l[0]?) h_same
    have h_ones : (fileBlock 1 ++ fileBlock 1)[linux.blockSize]? = some 1 := by
      rw [List.getElem?_append_right (by simp [fileBlock])]
      simp [fileBlock, h_bs]
    have h_zeros : (((fileBlock 0).drop (0 * linux.blockSize)).take linux.blockSize)[0]? =
        some 0 := by
      simp [fileBlock, h_bs]
    dsimp only at h_first
    rw [h_zeros, List.getElem?_eq_getElem (by simpa using h_bs), Medium.getElem_slice] at h_first
    have h_stored := Option.some.inj h_first
    have h_addr : ((1 : UInt64).toNat + 0) * linux.blockSize + 0 = linux.blockSize := by
      simp
    rw [h_addr, Medium.store_apply_of_le (Nat.zero_le _), Nat.sub_zero, h_ones] at h_stored
    exact absurd h_stored (by simp)

end IscsiTarget
