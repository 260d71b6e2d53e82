import IscsiTarget.Commands.WriteSame
import IscsiTarget.Write.Completion

/-!
# What the answer to a WRITE SAME says

The loop of `write_same` writes one block after the other (`medium_writeSameBlocks`), and the
one that goes up to the end of the device is the same loop over what is left of it
(`writeSameToEnd_eq`). When a backend call fails the loop ends, and the answer is GOOD all the
same; without data the answer is GOOD although nothing was done.

There is one more way to a GOOD. When the number of blocks happens to be the size of a block, a
command without data is answered with an R2T, and the GOOD comes after the Data-Outs that bring
the block (`SameRun`). The R2T session of a WRITE SAME has no address and no length, though, and
the R2T asks for no bytes: nothing is written, or no block is trimmed, whatever the one Data-Out
brings (`writtenDataOut_same`). A second one finds a count that has wrapped around.

`sameTruth_iff` says when the answer is a true one (`SameHonest`).
-/

namespace IscsiTarget

variable {β : Type} (T : Target β) (medium : β → Medium UInt8)

/-- What every block of the range is to hold. -/
def samePattern (isUnmap : Bool) (data : Bytes) : Bytes :=
  if isUnmap then List.replicate T.blockSize 0 else data.take T.blockSize

/-- The end of the addressed range. A count of zero stands for all blocks up to
the end of the device. -/
def sameEnd (c : Conn β) (q : Pdu) : ℕ :=
  if q.nBlocks = 0 then c.scsi.size T else q.lba.toNat + q.nBlocks.toNat

/-- The block is in the addressed range. -/
def InSame (c : Conn β) (q : Pdu) (b : ℕ) : Prop := q.lba.toNat ≤ b ∧ b < sameEnd T c q

/-- Every block of the range is a block of the device and holds what it is to
hold. `data` is the block that has come for the command. -/
def SameFilled (c : Conn β) (q : Pdu) (data : Bytes) (m : Medium UInt8) : Prop :=
  ∀ b, InSame T c q b → b < c.scsi.size T ∧
    m.slice (b * T.blockSize) T.blockSize = samePattern T q.unmaps data

/-- The answer in `evs` to a WRITE SAME that leads from `c` to `c'` is a true
one: a GOOD means that the range holds the pattern and that nothing else has
changed, and no GOOD comes with a backend call that has failed. -/
structure SameTruth (c : Conn β) (q : Pdu) (data : Bytes) (c' : Conn β) (evs : List Event) :
    Prop where
  filled : (∃ e ∈ evs, IsGood q e) → SameFilled T c q data (medium c'.scsi.disk)
  kept : (∃ e ∈ evs, IsGood q e) → ∀ b, ¬ InSame T c q b →
    (medium c'.scsi.disk).slice (b * T.blockSize) T.blockSize =
      (medium c.scsi.disk).slice (b * T.blockSize) T.blockSize
  failed : (∃ e ∈ evs, e.Failed) → ∀ e ∈ evs, ¬ IsGood q e

/-! ### The Data-Out -/

/-- The tag of the R2T for a command without data, and whether there is one. -/
def sameTag (c : Conn β) (q : Pdu) : UInt32 × Bool :=
  chooseTtt T (c.receive q).scsi.history q.bhs.getItasktag

/-- The command, once it is accepted, is answered with an R2T. -/
def SameAsked (q : Pdu) : Prop :=
  q.data = [] ∧ q.nBlocks.toNat = T.blockSize ∧ nBytesOf T q = q.bhs.getExpDatLen.toNat

/-- `ds` answer the R2T: they are Data-Outs under its tag. -/
structure SameReply (c : Conn β) (q : Pdu) (ds : List Pdu) : Prop where
  opcode : ∀ d ∈ ds, d.bhs.getOpcode = .scsiDataOut
  tag : ∀ d ∈ ds, d.tag = (sameTag T c q).1

/-- The whole of a WRITE SAME: the command alone when no R2T is sent for it, and
otherwise the command and the Data-Outs `ds`. With it come the data it has got,
and all that has happened. -/
inductive SameRun (fuel : ℕ) (c : Conn β) (q : Pdu) (ds : List Pdu) :
    Bytes → Conn β → List Event → Prop
  | alone {c' : Conn β} {evs : List Event} (h_serve : serve T fuel c q = .ok c')
    (h_does : c.scsi.Does c'.scsi evs) (h_r2t : ∀ p ok, .sent (.r2t p) ok ∉ evs) :
    SameRun fuel c q ds q.data c' evs
  | asked {c₁ c' : Conn β} {evs evs' : List Event} {p : R2tPdu} {ok : Bool}
    (h_serve : serve T fuel c q = .ok c₁) (h_does : c.scsi.Does c₁.scsi evs)
    (h_r2t : .sent (.r2t p) ok ∈ evs) (h_tag : ∀ d ∈ ds, d.tag = p.ttt)
    (h_run : Machine.run (serve T fuel) c₁ ds = .ok c') (h_does' : c₁.scsi.Does c'.scsi evs') :
    SameRun fuel c q ds (ds.flatMap Pdu.data) c' (evs ++ evs')

variable {T} in
theorem SameRun.does {fuel : ℕ} {c c' : Conn β} {q : Pdu} {ds : List Pdu} {data : Bytes}
    {evs : List Event} (h : SameRun T fuel c q ds data c' evs) : c.scsi.Does c'.scsi evs := by
  cases h with
  | alone h_serve h_does h_r2t => exact h_does
  | asked h_serve h_does h_r2t h_tag h_run h_does' => exact h_does.trans h_does'

variable {T} in
theorem SameRun.serve_of_nil {fuel : ℕ} {c c' : Conn β} {q : Pdu} {data : Bytes}
    {evs : List Event} (h : SameRun T fuel c q [] data c' evs) : serve T fuel c q = .ok c' := by
  cases h with
  | alone h_serve h_does h_r2t => exact h_serve
  | asked h_serve h_does h_r2t h_tag h_run h_does' => exact h_serve.trans h_run

/-! ### The condition -/

/-- With one block of data, the range is inside the device and no backend call
fails. -/
def SameDone (c : Conn β) (q : Pdu) (evs : List Event) : Prop :=
  q.data.length / T.blockSize ≠ 1 ∨ SameTooLong T c q ∨ c.scsi.lockingStatus T = .lockedOther ∨
    sameEnd T c q ≤ c.scsi.size T ∧ ∀ e ∈ evs, ¬ e.Failed

/-- A Data-Out that is not the end of a burst, or is turned away before anything
is done. -/
def EndsNothing (d : Pdu) : Prop := d.bhs.getF = false ∨ d.data ≠ [] ∧ ¬ d.Aligned T.blockSize

/-- No more than one Data-Out comes, and there is no R2T session of another
command under the tag. -/
def SameSingle (c : Conn β) (q : Pdu) (ds : List Pdu) : Prop :=
  ds.length ≤ 1 ∧ c.ses.getR2tSesion (sameTag T c q).1 = none

/-- With an R2T, no GOOD is sent: there is no tag for it, or none of the
Data-Outs ends a burst, or the trim of no blocks that the only one leads to is
not carried out. Or else the range held what it is to hold from the beginning,
since the only Data-Out does nothing to it. -/
def SameIdle (c : Conn β) (q : Pdu) (ds : List Pdu) (evs : List Event) : Prop :=
  (sameTag T c q).2 = false ∨ (∀ d ∈ ds, EndsNothing T d) ∨ SameSingle T c q ds ∧ ∃ d ∈ ds,
    d.data ≠ [] ∧ q.unmaps = true ∧
      (c.scsi.lockingStatus T = .lockedOther ∨ ∃ e ∈ evs, e.Failed) ∨
    SameFilled T c q d.data (medium c.scsi.disk)

/-- When the answer is a true one. `evs` tells which backend calls fail. -/
def SameHonest (c : Conn β) (q : Pdu) (ds : List Pdu) (evs : List Event) : Prop :=
  writeCheck T c q ≠ none ∨ q.data ≠ [] ∧ SameDone T c q evs ∨
    SameAsked T q ∧ SameIdle T medium c q ds evs ∨
    q.data = [] ∧ ¬ SameAsked T q ∧ SameFilled T c q q.data (medium c.scsi.disk)

variable {T medium}

namespace Scsi

variable {s : Scsi β} {lba : UInt64} {isUnmap : Bool} {data : Bytes}

/-! ### The loops -/

theorem length_samePattern (hlen : T.blockSize ≤ data.length) :
    (samePattern T isUnmap data).length = T.blockSize := by
  unfold samePattern
  split
  · exact List.length_replicate ..
  · rw [List.length_take]
    exact min_eq_left hlen

/-- **One turn** stores the pattern in one block. With UNMAP it is a trim, and
the pattern is zeros. -/
theorem medium_writeSameBlock (hB : T.backend.Stores medium) (hlen : T.blockSize ≤ data.length)
    (hin : lba.toNat + 1 ≤ s.size T) (hok : (s.writeSameBlock T isUnmap data lba).1 = .ok) :
    medium (s.writeSameBlock T isUnmap data lba).2.disk =
        (medium s.disk).store (lba.toNat * T.blockSize) (samePattern T isUnmap data) ∧
      (s.writeSameBlock T isUnmap data lba).2.size T = s.size T := by
  have h_one : (1 : UInt32).toNat = 1 := rfl
  unfold writeSameBlock samePattern at *
  -- a trim of one block stores zeros, a write the block of the command
  cases isUnmap with
  | true =>
    obtain ⟨h_medium, h_size⟩ := @medium_trim _ T medium hB s lba 1 hin hok
    rw [h_one, Nat.one_mul, Medium.clear_eq_store] at h_medium
    exact ⟨h_medium, congrArg UInt64.toNat h_size⟩
  | false =>
    have h_len : (1 : UInt32).toNat * T.blockSize ≤ data.length := by
      rw [h_one, Nat.one_mul]
      exact hlen
    obtain ⟨h_medium, h_size⟩ := @medium_write _ T medium hB s lba 1 data hin h_len hok
    rw [h_one, Nat.one_mul] at h_medium
    exact ⟨h_medium, congrArg UInt64.toNat h_size⟩

/-- **The loop over `k` blocks** stores the pattern in each of them and leaves
the others. By induction on `k`: the first block is stored, and then the others
behind it. -/
theorem medium_writeSameBlocks (hB : T.backend.Stores medium) (hlen : T.blockSize ≤ data.length)
    (k : ℕ) (lba : UInt64) (s : Scsi β) (hin : lba.toNat + k ≤ s.size T)
    (hok : (writeSameBlocks T isUnmap data k lba s).1 = .ok) (b : ℕ) :
    (medium (writeSameBlocks T isUnmap data k lba s).2.disk).slice (b * T.blockSize) T.blockSize =
      if lba.toNat ≤ b ∧ b < lba.toNat + k then samePattern T isUnmap data
      else (medium s.disk).slice (b * T.blockSize) T.blockSize := by
  induction k generalizing lba s with
  | zero => rw [if_neg (by omega), writeSameBlocks]
  | succ k ih =>
    have h_size : s.size T < 2 ^ 64 := (s.getSizeInBlocks T).toNat_lt
    have h_next : (lba + 1).toNat = lba.toNat + 1 := toNat_add_ofNat (j := 1) (by omega)
    have h_first := @medium_writeSameBlock _ T medium s lba isUnmap data hB hlen (by omega)
    unfold writeSameBlocks at hok ⊢
    generalize s.writeSameBlock T isUnmap data lba = first at h_first hok ⊢
    obtain ⟨rc, s'⟩ := first
    cases rc with
    | ok =>
      obtain ⟨h_medium, h_size'⟩ := h_first rfl
      dsimp only at h_medium h_size' hok ⊢
      rw [ih (lba + 1) s' (by omega) hok, h_next, h_medium]
      have h_block := @Medium.slice_store_block _ (medium s.disk) (samePattern T isUnmap data)
        lba.toNat b
      rw [length_samePattern hlen] at h_block
      rw [h_block]
      -- the first block, or one of the others
      by_cases h_b : b = lba.toNat
      · rw [if_neg (by omega), if_pos h_b, if_pos (by omega)]
      · rw [if_neg h_b]
        by_cases h_in : lba.toNat + 1 ≤ b ∧ b < lba.toNat + 1 + k
        · rw [if_pos h_in, if_pos (by omega)]
        · rw [if_neg h_in, if_neg (by omega)]
    | failRw => exact nomatch hok
    | failLocked => exact nomatch hok
    | failGeneral => exact nomatch hok
    | failMismatch => exact nomatch hok

/-- **The loop up to the end of the device** is the loop over what is left of
it. The size of the device does not change on the way. -/
theorem writeSameToEnd_eq (hB : T.backend.Stores medium) (hlen : T.blockSize ≤ data.length)
    {k fuel : ℕ} (h_fuel : k < fuel) (lba : UInt64) (s : Scsi β) (hk : lba.toNat + k = s.size T) :
    writeSameToEnd T isUnmap data fuel lba s = .ok (writeSameBlocks T isUnmap data k lba s) := by
  -- on the blocks that are left; a write that works leaves the size as it is
  induction k generalizing fuel lba s with
  | zero =>
    obtain ⟨fuel, rfl⟩ : ∃ f, fuel = f + 1 := ⟨fuel - 1, by omega⟩
    have h_end : ¬ lba < s.getSizeInBlocks T := by
      rw [UInt64.lt_iff_toNat_lt]
      unfold size at hk
      omega
    rw [writeSameToEnd, if_neg h_end, writeSameBlocks]
  | succ k ih =>
    obtain ⟨fuel, rfl⟩ : ∃ f, fuel = f + 1 := ⟨fuel - 1, by omega⟩
    have h_more : lba < s.getSizeInBlocks T := by
      rw [UInt64.lt_iff_toNat_lt]
      unfold size at hk
      omega
    have h_size : s.size T < 2 ^ 64 := (s.getSizeInBlocks T).toNat_lt
    have h_next : (lba + 1).toNat = lba.toNat + 1 := toNat_add_ofNat (j := 1) (by omega)
    have h_first := @medium_writeSameBlock _ T medium s lba isUnmap data hB hlen (by omega)
    rw [writeSameToEnd, if_pos h_more, writeSameBlocks]
    generalize s.writeSameBlock T isUnmap data lba = first at h_first ⊢
    obtain ⟨rc, s'⟩ := first
    cases rc with
    -- the device is as large as before, so the two loops go on alike
    | ok =>
      have h_size' : s'.size T = s.size T := (h_first rfl).2
      exact ih (by omega) (lba + 1) s' (by omega)
    | failRw => rfl
    | failLocked => rfl
    | failGeneral => rfl
    | failMismatch => rfl

/-- A count of zero that passes the check leaves an address on the device. -/
theorem lba_le_of_check {n : UInt32} {cdb : Option Cdb}
    (h : s.validateRequest T lba n cdb = none) (h_zero : n = 0) : lba.toNat ≤ s.size T := by
  have h_range : s.validateRequest T lba n none = none := by
    cases cdb with
    | none => exact h
    | some cdb => exact ((validateRequest_cdb_eq_none_iff T s lba n cdb).mp h).1
  rw [validateRequest_eq_none_iff, h_zero] at h_range
  exact h_range.2 (Nat.zero_le _)

/-- The loop for a count of zero, or for another count. -/
theorem sameLoop_eq (hB : T.backend.Stores medium) (hlen : T.blockSize ≤ data.length) {fuel : ℕ}
    (h_fuel : T.build.maxWsLen.toNat < fuel) {n : UInt32} {cdb : Option Cdb} {s₀ : Scsi β}
    (hcheck : s₀.validateRequest T lba n cdb = none) (h_disk : s.disk = s₀.disk)
    (hlong : n = 0 → ¬ s₀.getSizeInBlocks T - lba > T.build.maxWsLen.toUInt64) :
    (if n = 0 then writeSameToEnd T isUnmap data fuel lba s
      else .ok (writeSameBlocks T isUnmap data n.toNat lba s)) =
      .ok (writeSameBlocks T isUnmap data
        ((if n = 0 then s₀.size T else lba.toNat + n.toNat) - lba.toNat) lba s) := by
  by_cases h_zero : n = 0
  · have h_lba := lba_le_of_check hcheck h_zero
    have h_small : s₀.size T - lba.toNat ≤ T.build.maxWsLen.toNat := by
      by_contra h
      refine hlong h_zero ?_
      rw [gt_iff_lt, UInt64.lt_iff_toNat_lt, UInt64.toNat_sub_of_le _ _ h_lba,
        UInt32.toNat_toUInt64]
      exact Nat.not_le.mp h
    have h_size : s.size T = s₀.size T := by
      unfold size getSizeInBlocks
      rw [h_disk]
    rw [if_pos h_zero, if_pos h_zero]
    exact writeSameToEnd_eq hB hlen (by omega) lba s (by omega)
  · rw [if_neg h_zero, if_neg h_zero, Nat.add_sub_cancel_left]

end Scsi

variable {fuel : ℕ} {c : Conn β} {q d : Pdu} {ds : List Pdu}

/-- **The loop, of one kind or the other**, runs over the addressed range. -/
theorem sameLoop_eq (hB : T.backend.Stores medium) (h_fuel : T.build.maxWsLen.toNat < fuel)
    (hcheck : writeCheck T c q = none) (hcount : q.data.length / T.blockSize = 1)
    (hlong : ¬ SameTooLong T c q) :
    sameLoop T fuel c q = .ok (Scsi.writeSameBlocks T q.unmaps q.data
      (sameEnd T c q - q.lba.toNat) q.lba (c.receive q).scsi) := by
  have hlen : T.blockSize ≤ q.data.length := by
    by_contra h
    rw [Nat.div_eq_of_lt (Nat.not_le.mp h)] at hcount
    exact absurd hcount (by decide)
  have h_check : c.scsi.validateRequest T q.lba q.nBlocks (some q.bhs.getCdb) = none := hcheck
  exact Scsi.sameLoop_eq hB hlen h_fuel h_check (s := (c.receive q).scsi) rfl
    fun h_zero h_long => hlong ⟨h_zero, h_long⟩

/-- The answer with this sense data is GOOD when there is none. -/
theorem isGood_statusPdu_iff (q : Pdu) (sense : Bytes) (residual : Option (Residual × UInt32))
    (ok : Bool) : IsGood q (.sent (statusPdu T q sense residual) ok) ↔ sense = [] := by
  by_cases h : sense = []
  · subst h
    exact iff_of_true ⟨rfl, rfl⟩ rfl
  · exact iff_of_false (not_isGood_sense q h residual ok) h

/-- An answer to the command alone. Nothing is asked for, so that the command is
over when its status is sent. -/
theorem sameTruth_of_answer {s' : Scsi β} {es : List Event} {sense : Bytes}
    {residual : Option (Residual × UInt32)} (h_does : c.scsi.Does s' (.received q :: es))
    (h_quiet : ∀ e ∈ es, ¬ IsGood q e) (h_r2t : ∀ p ok, .sent (.r2t p) ok ∉ es) :
    ∃ evs, c.scsi.Does (({ c with scsi := s' } : Conn β).emit T
        (statusPdu T q sense residual)).scsi evs ∧
      (∀ p ok, .sent (.r2t p) ok ∉ evs) ∧
      ((∃ e ∈ evs, IsGood q e) ↔ sense = []) ∧
      ((∃ e ∈ evs, e.Failed) ↔ ∃ e ∈ es, e.Failed) := by
  refine ⟨_, h_does.trans (Scsi.does_note _), fun p ok h_mem => ?_, ?_, ?_⟩
  · -- what is sent is a SCSI Response
    rcases List.mem_append.mp h_mem with h_mem | h_mem
    · rcases List.mem_cons.mp h_mem with h_mem | h_mem
      · cases h_mem
      · exact h_r2t p ok h_mem
    · cases List.mem_singleton.mp h_mem
  · have h_good := isGood_statusPdu_iff (T := T) q sense residual (T.send s'.history)
    rw [← h_good]
    -- the response is the last event, and none before it is a GOOD for this command
    constructor
    · rintro ⟨e, he, h_e⟩
      rcases List.mem_append.mp he with he | he
      · rcases List.mem_cons.mp he with rfl | he
        · exact absurd h_e (not_isGood_received q q)
        · exact absurd h_e (h_quiet e he)
      · obtain rfl := List.mem_singleton.mp he
        exact h_e
    · intro h
      exact ⟨_, List.mem_append_right _ (List.mem_singleton.mpr rfl), h⟩
  · simp [Event.Failed]

/-- The addressed range does not end before it begins. -/
theorem lba_le_sameEnd (hcheck : writeCheck T c q = none) : q.lba.toNat ≤ sameEnd T c q := by
  unfold sameEnd
  split
  · next h_zero =>
    have h_check : c.scsi.validateRequest T q.lba q.nBlocks (some q.bhs.getCdb) = none := hcheck
    exact Scsi.lba_le_of_check h_check h_zero
  · exact Nat.le_add_right _ _

/-- A reservation of another session stops the loop at its first block. -/
theorem writeSameBlocks_of_locked {s : Scsi β} (hl : s.lockingStatus T = .lockedOther)
    (isUnmap : Bool) (data : Bytes) {k : ℕ} (hk : 0 < k) (lba : UInt64) :
    (Scsi.writeSameBlocks T isUnmap data k lba s).1 = .failLocked := by
  obtain ⟨k, rfl⟩ : ∃ j, k = j + 1 := ⟨k - 1, by omega⟩
  have h_first : s.writeSameBlock T isUnmap data lba = (.failLocked, s) := by
    unfold Scsi.writeSameBlock Scsi.trim
    rw [if_neg (not_not.mpr hl), Scsi.write_of_locked hl]
    exact ite_self _
  rw [Scsi.writeSameBlocks, h_first]

/-- A range that does not end inside the device is not empty. -/
theorem lba_lt_sameEnd (hcheck : writeCheck T c q = none)
    (h_out : ¬ sameEnd T c q ≤ c.scsi.size T) : q.lba.toNat < sameEnd T c q := by
  refine (lba_le_sameEnd hcheck).lt_of_ne fun h_eq => ?_
  have h_check : c.scsi.validateRequest T q.lba q.nBlocks (some q.bhs.getCdb) = none := hcheck
  by_cases h_count : q.nBlocks = 0
  · exact h_out (by rw [← h_eq]; exact Scsi.lba_le_of_check h_check h_count)
  · unfold sameEnd at h_eq
    rw [if_neg h_count] at h_eq
    exact h_count (UInt32.toNat_inj.mp (by rw [UInt32.toNat_zero]; omega))

/-- **What a loop that has succeeded leaves** inside the device: the pattern in
every block of the range, and the other blocks as they were. -/
theorem sameFilled_looped (hB : T.backend.Stores medium) {r : RwResult × Scsi β}
    (hr : Scsi.writeSameBlocks T q.unmaps q.data (sameEnd T c q - q.lba.toNat) q.lba
      (c.receive q).scsi = r)
    (hcheck : writeCheck T c q = none) (hcount : q.data.length / T.blockSize = 1)
    (h_in : sameEnd T c q ≤ c.scsi.size T) (h_rc : r.1 = .ok) :
    SameFilled T c q q.data (medium r.2.disk) ∧ ∀ b, ¬ InSame T c q b →
      (medium r.2.disk).slice (b * T.blockSize) T.blockSize =
        (medium c.scsi.disk).slice (b * T.blockSize) T.blockSize := by
  have h_le := lba_le_sameEnd hcheck
  have hlen : T.blockSize ≤ q.data.length := by
    by_contra h
    rw [Nat.div_eq_of_lt (Nat.not_le.mp h)] at hcount
    exact absurd hcount (by decide)
  have h_size : (c.receive q).scsi.size T = c.scsi.size T := rfl
  have h_blocks := @Scsi.medium_writeSameBlocks _ T medium q.unmaps q.data hB hlen
    (sameEnd T c q - q.lba.toNat) q.lba (c.receive q).scsi (by omega) (by rw [hr]; exact h_rc)
  rw [hr, Nat.add_sub_cancel' h_le] at h_blocks
  exact ⟨fun b h_b => ⟨lt_of_lt_of_le h_b.2 h_in, (h_blocks b).trans (if_pos h_b)⟩,
    fun b h_b => (h_blocks b).trans (if_neg h_b)⟩

/-- **A command whose loop has been through.** It is answered truly when the
device is reserved by another session, or when the range is inside the device
and no backend call fails. -/
theorem sameTruth_looped (hB : T.backend.Stores medium) {r : RwResult × Scsi β}
    (hr : Scsi.writeSameBlocks T q.unmaps q.data (sameEnd T c q - q.lba.toNat) q.lba
      (c.receive q).scsi = r)
    (hcheck : writeCheck T c q = none) (hd : q.data ≠ [])
    (hcount : q.data.length / T.blockSize = 1) (hlong : ¬ SameTooLong T c q) :
    ∃ evs, c.scsi.Does (({ c with scsi := r.2 } : Conn β).emit T
        (statusPdu T q (sameSense r.1) none)).scsi evs ∧
      (∀ p ok, .sent (.r2t p) ok ∉ evs) ∧
      (SameTruth T medium c q q.data (({ c with scsi := r.2 } : Conn β).emit T
        (statusPdu T q (sameSense r.1) none)) evs ↔ SameHonest T medium c q ds evs) := by
  obtain ⟨es, h_writes⟩ := Scsi.writes_writeSameBlocks (T := T) q.unmaps q.data
    (sameEnd T c q - q.lba.toNat) q.lba (c.receive q).scsi
  rw [hr] at h_writes
  obtain ⟨evs, h_does, h_r2t, h_good, h_failed⟩ :=
    @sameTruth_of_answer _ T c q r.2 es (sameSense r.1) none
      ((Scsi.does_note (.received q)).trans h_writes.does)
      (fun e he => not_isGood_transfer q (h_writes.transfer e he))
      fun p ok h_mem => (h_writes.transfer _ h_mem).elim
  refine ⟨evs, h_does, h_r2t, ?_⟩
  have h_calls : (∀ e ∈ evs, ¬ e.Failed) ↔ ∀ e ∈ es, ¬ e.Failed := by
    have h_not := not_congr h_failed
    push Not at h_not
    exact h_not
  -- in this branch the condition comes down to the reservation, the range and the calls
  have h_honest : SameHonest T medium c q ds evs ↔ c.scsi.lockingStatus T = .lockedOther ∨
      sameEnd T c q ≤ c.scsi.size T ∧ ∀ e ∈ es, ¬ e.Failed := by
    rw [← h_calls]
    unfold SameHonest SameDone SameAsked
    simp [hcheck, hd, hcount, hlong]
  rw [h_honest]
  -- by the result of the loop
  rcases h_writes.result with h_rc | h_rc | h_rc
  · -- every call has succeeded, and the answer is GOOD
    have h_ok := h_writes.ok h_rc
    have h_sense : sameSense r.1 = [] := by rw [h_rc]; rfl
    by_cases h_in : sameEnd T c q ≤ c.scsi.size T
    · refine iff_of_true ?_ (.inr ⟨h_in, h_ok⟩)
      obtain ⟨h_filled, h_kept⟩ := sameFilled_looped hB hr hcheck hcount h_in h_rc
      refine ⟨fun _ => h_filled, fun _ => h_kept, fun h => ?_⟩
      obtain ⟨e, he, h_e⟩ := h_failed.mp h
      exact absurd h_e (h_ok e he)
    · -- the last block of the range is not a block of the device
      have h_pos : 0 < sameEnd T c q - q.lba.toNat :=
        Nat.sub_pos_of_lt (lba_lt_sameEnd hcheck h_in)
      refine iff_of_false (fun h => ?_) ?_
      · have h_last := (h.filled (h_good.mpr h_sense) (sameEnd T c q - 1) ⟨by omega, by omega⟩).1
        omega
      · rintro (hl | ⟨h, -⟩)
        · have h_locked := writeSameBlocks_of_locked (T := T) (s := (c.receive q).scsi) hl q.unmaps
            q.data h_pos q.lba
          rw [hr, h_rc] at h_locked
          exact nomatch h_locked
        · exact h_in h
  · -- stopped by a reservation
    have h_not := mt h_good.mp (show sameSense r.1 ≠ [] by
      rw [h_rc]
      simp [sameSense, errorReservationConflict1, fixedSense])
    exact iff_of_true ⟨fun h => absurd h h_not, fun h => absurd h h_not,
      fun _ e he h_e => h_not ⟨e, he, h_e⟩⟩ (.inl (h_writes.locked h_rc))
  · -- a call has failed, and the answer is GOOD
    obtain ⟨e, he, h_e⟩ := h_writes.fail h_rc
    have h_sense : sameSense r.1 = [] := by rw [h_rc]; rfl
    obtain ⟨g, hg, h_g⟩ := h_good.mpr h_sense
    refine iff_of_false (fun h => h.failed (h_failed.mpr ⟨e, he, h_e⟩) g hg h_g) ?_
    rintro (hl | ⟨-, h⟩)
    · rw [h_writes.quiet hl] at he
      exact absurd he (by simp)
    · exact h e he h_e

/-- Where there is no GOOD there is nothing to be true. -/
theorem sameTruth_of_quiet {data : Bytes} {c' : Conn β} {evs : List Event}
    (h : ∀ e ∈ evs, ¬ IsGood q e) : SameTruth T medium c q data c' evs := by
  have h_none : ¬ ∃ e ∈ evs, IsGood q e := by
    rintro ⟨e, he, h_e⟩
    exact h e he h_e
  exact ⟨fun h_good => absurd h_good h_none, fun h_good => absurd h_good h_none, fun _ => h⟩

/-- A GOOD after which the medium is what it was. -/
theorem sameTruth_of_unchanged {data : Bytes} {c' : Conn β} {evs : List Event}
    (h_good : ∃ e ∈ evs, IsGood q e) (h_calls : ∀ e ∈ evs, ¬ e.Failed)
    (h_medium : medium c'.scsi.disk = medium c.scsi.disk) :
    SameTruth T medium c q data c' evs ↔ SameFilled T c q data (medium c.scsi.disk) := by
  rw [← h_medium]
  refine ⟨fun h => h.filled h_good, fun h => ⟨fun _ => h, fun _ b _ => by rw [h_medium], ?_⟩⟩
  rintro ⟨e, he, h_e⟩
  exact absurd h_e (h_calls e he)

/-- A command without data that is answered with GOOD. Nothing has been done, so
that it is true only when nothing was to be done. -/
theorem sameTruth_nothing {residual : Option (Residual × UInt32)} (hcheck : writeCheck T c q = none)
    (hd : q.data = []) (hask : ¬ SameAsked T q) :
    ∃ evs, c.scsi.Does ((c.receive q).emit T (statusPdu T q [] residual)).scsi evs ∧
      (∀ p ok, .sent (.r2t p) ok ∉ evs) ∧
      (SameTruth T medium c q q.data ((c.receive q).emit T (statusPdu T q [] residual)) evs ↔
        SameHonest T medium c q ds evs) := by
  obtain ⟨evs, h_does, h_r2t, h_good, h_failed⟩ := @sameTruth_of_answer _ T c q (c.receive q).scsi
    [] [] residual (Scsi.does_note _) (by simp) (by simp)
  refine ⟨evs, h_does, h_r2t, ?_⟩
  have h_honest : SameHonest T medium c q ds evs ↔
      SameFilled T c q q.data (medium c.scsi.disk) := by
    unfold SameHonest
    simp [hcheck, hd, hask]
  -- nothing is written, so the answer is true when nothing was to be changed
  rw [h_honest]
  refine sameTruth_of_unchanged (h_good.mpr rfl) (fun e he h_e => ?_) rfl
  exact absurd (h_failed.mp ⟨e, he, h_e⟩) (by simp)

/-! ### After an R2T -/

/-- The R2T session of a WRITE SAME, as it is registered. -/
def sameSession (q : Pdu) : R2tSession := { sameTask q with fua := false, pduInitiator := q.bhs }

/-- **What a Data-Out for it writes**: nothing. With the UNMAP bit no block is
trimmed. -/
theorem writtenDataOut_same (c : Conn β) (q d : Pdu) :
    writtenDataOut T c d (sameSession q) =
      if q.unmaps = true then (c.receive d).scsi.trim T 0 0 else (.ok, (c.receive d).scsi) := by
  -- the session of a WRITE SAME has a counter of zero, and an address of zero
  have h_none : UInt32.ofNat ((0 : UInt32).toNat / T.blockSize) = 0 := by
    rw [UInt32.toNat_zero, Nat.zero_div]
    rfl
  have h_task : writtenDataOut T c d (sameSession q) =
      if q.unmaps = true then
        (c.receive d).scsi.trim T 0 (UInt32.ofNat ((0 : UInt32).toNat / T.blockSize))
      else Scsi.writeSameBlocks T false d.data
        (UInt32.ofNat ((0 : UInt32).toNat / T.blockSize)).toNat
        (0 + UInt64.ofNat (d.bhs.getBufferOffset.toNat / T.blockSize)) (c.receive d).scsi := rfl
  rw [h_task, h_none]
  rfl

/-- So the medium stays, whatever the Data-Out brings. -/
theorem medium_writtenDataOut_same (hB : T.backend.Stores medium)
    (h : (writtenDataOut T c d (sameSession q)).1 = .ok) :
    medium (writtenDataOut T c d (sameSession q)).2.disk = medium c.scsi.disk := by
  rw [writtenDataOut_same] at h ⊢
  split at h
  · -- a trim of no blocks is inside every device
    next h_unmaps =>
    have h_in : T.backend.InRange (c.receive d).scsi.disk 0 0 := Nat.zero_le _
    rw [if_pos h_unmaps, (Scsi.medium_trim hB h_in h).1, UInt32.toNat_zero, Nat.zero_mul,
      Medium.clear_eq_store, List.replicate_zero, Medium.store_nil]
    rfl
  · next h_unmaps =>
    rw [if_neg h_unmaps]
    rfl

/-- The trim of no blocks is stopped by a reservation, or fails. Without the
UNMAP bit there is no call that could. -/
theorem sameIdle_of_failed {es : List Event} {rc : RwResult} {s' : Scsi β}
    (h : Scsi.Writes T (c.receive d).scsi rc s' es)
    (h_eq : writtenDataOut T c d (sameSession q) = (rc, s')) (h_rc : rc ≠ .ok) :
    q.unmaps = true ∧ (c.scsi.lockingStatus T = .lockedOther ∨ ∃ e ∈ es, e.Failed) := by
  constructor
  · by_contra h_unmaps
    rw [writtenDataOut_same, if_neg h_unmaps] at h_eq
    exact h_rc (Prod.mk.inj h_eq).1.symm
  · -- the call has not been made, or has failed
    rcases h.result with h_ok | h_locked | h_fail
    · exact absurd h_ok h_rc
    · exact .inl (h.locked h_locked)
    · exact .inr (h.fail h_fail)

/-- Data-Outs that end nothing are not answered with GOOD. Without the F bit, or
refused, they do not get to the end of a burst. -/
theorem quiet_dataOuts (q : Pdu) (hop : ∀ d ∈ ds, d.bhs.getOpcode = .scsiDataOut) (c₁ : Conn β) :
    ∃ c' evs, Machine.run (serve T fuel) c₁ ds = .ok c' ∧ c₁.scsi.Does c'.scsi evs ∧
      ((∀ d ∈ ds, EndsNothing T d) → ∀ e ∈ evs, ¬ IsGood q e) := by
  -- on the Data-Outs, one after the other
  induction ds generalizing c₁ with
  | nil => exact ⟨c₁, [], rfl, Scsi.Does.refl _, by simp⟩
  | cons d ds ih =>
    obtain ⟨c₂, h_serve, h_out⟩ := serve_dataOut (T := T) fuel c₁ (hop d List.mem_cons_self)
    obtain ⟨c', evs, h_run, h_does, h_quiet⟩ :=
      ih (fun d' hd' => hop d' (List.mem_cons_of_mem _ hd')) c₂
    obtain ⟨new, h_new, h_silent⟩ : ∃ new, c₁.scsi.Does c₂.scsi new ∧
        (EndsNothing T d → ∀ e ∈ new, ¬ IsGood q e) := by
      by_cases h_ends : EndsNothing T d
      · -- it is not taken, or does not end a burst
        obtain ⟨new, h_new, h_silent⟩ := h_out.quiet q fun session _ hF h_takes => by
          obtain ⟨session', c₃, h_del⟩ := h_takes
          rcases h_ends with h | ⟨hd, h⟩
          · exact absurd (hF.symm.trans h) (by simp)
          · cases h_del with
            | empty hd' => exact hd hd'
            | data _ halign => exact h halign
        exact ⟨new, h_new, fun _ => h_silent⟩
      · obtain ⟨new, h_new⟩ := h_out.extends
        exact ⟨new, h_new, fun h => absurd h h_ends⟩
    refine ⟨c', new ++ evs, (Machine.run_cons_ok h_serve).trans h_run, h_new.trans h_does, ?_⟩
    intro h
    exact List.forall_mem_append.mpr ⟨h_silent (h d List.mem_cons_self),
      h_quiet fun d' hd' => h d' (List.mem_cons_of_mem _ hd')⟩

/-- A Data-Out for it that is taken leaves the medium as it is. With the UNMAP
bit and data in it no other session has the reservation. -/
theorem Delivered.same (hB : T.backend.Stores medium) {c₁ c₂ : Conn β} {session' : R2tSession}
    (h : Delivered T c₁ d (sameSession q) session' c₂) :
    session'.pduInitiator = q.bhs ∧ medium c₂.scsi.disk = medium c₁.scsi.disk ∧
      ∃ es, c₁.scsi.Does c₂.scsi (.received d :: es) ∧ (∀ e ∈ es, ¬ e.Failed) ∧
        (d.data = [] ∨ d.Aligned T.blockSize ∧
          (q.unmaps = true → c₁.scsi.lockingStatus T ≠ .lockedOther)) := by
  cases h with
  | empty hd => exact ⟨rfl, rfl, [], Scsi.does_note _, by simp, .inl hd⟩
  | data hd halign hwritten hsync =>
    obtain ⟨es, h_writes⟩ := writes_writtenDataOut (T := T) c₁ d (sameSession q)
    refine ⟨rfl, medium_writtenDataOut_same hB hwritten, es,
      (Scsi.does_note _).trans h_writes.does, h_writes.ok hwritten,
      .inr ⟨halign, fun h_unmaps hl => ?_⟩⟩
    -- behind a reservation even the trim of no blocks fails
    have h_locked : (c₁.receive d).scsi.lockingStatus T = .lockedOther := hl
    rw [writtenDataOut_same, if_pos h_unmaps, Scsi.trim, if_neg (not_not.mpr h_locked)]
      at hwritten
    exact absurd hwritten (by simp)

/-- **The one Data-Out** that answers the R2T. Its data goes nowhere: the
session says that nothing is left to write, so that GOOD is sent with the medium
as it was. -/
theorem sameTruth_dataOut (hB : T.backend.Stores medium) {c₁ : Conn β}
    (hop : d.bhs.getOpcode = .scsiDataOut)
    (h_ses : c₁.ses.getR2tSesion d.tag = some (sameSession q))
    (h_lock : c₁.scsi.lockingStatus T = c.scsi.lockingStatus T)
    (h_medium : medium c₁.scsi.disk = medium c.scsi.disk) (h_chosen : (sameTag T c q).2 = true)
    (h_single : SameSingle T c q [d])
    {evs : List Event} (h_evs : ∀ e ∈ evs, ¬ IsGood q e ∧ ¬ e.Failed) :
    ∃ c' evs', serve T fuel c₁ d = .ok c' ∧ c₁.scsi.Does c'.scsi evs' ∧
      (SameTruth T medium c q d.data c' (evs ++ evs') ↔
        SameIdle T medium c q [d] (evs ++ evs')) := by
  obtain ⟨c', h_serve, h_out⟩ := serve_dataOut (T := T) fuel c₁ hop
  have h_session {session : R2tSession} (h : c₁.ses.getR2tSesion d.tag = some session) :
      session = sameSession q := Option.some.inj (h.symm.trans h_ses)
  -- no GOOD is sent unless the Data-Out ends the burst and is taken
  have h_silent {evs' : List Event} (h : ∀ e ∈ evs', ¬ IsGood q e) :
      SameTruth T medium c q d.data c' (evs ++ evs') :=
    sameTruth_of_quiet (List.forall_mem_append.mpr ⟨fun e he => (h_evs e he).1, h⟩)
  cases h_out with
  | unknown hses => exact absurd (hses.symm.trans h_ses) (by simp)
  | refused hses hbad =>
    refine ⟨_, _, h_serve, Scsi.does_note _, iff_of_true (h_silent ?_) ?_⟩
    · simp [not_isGood_received]
    · refine .inr (.inl (List.forall_mem_singleton.mpr ?_))
      rcases hbad with ⟨-, hF⟩ | ⟨hd, halign⟩
      · exact .inl hF
      · exact .inr ⟨hd, halign⟩
  | @writeFailed session hses hd halign hwritten =>
    obtain rfl := h_session hses
    obtain ⟨es, h_writes⟩ := writes_writtenDataOut (T := T) c₁ d (sameSession q)
    obtain ⟨h_unmaps, h_why⟩ := sameIdle_of_failed h_writes rfl hwritten
    refine ⟨_, _, h_serve,
      ((Scsi.does_note _).trans h_writes.does).trans (Scsi.does_note _),
      iff_of_true (h_silent ?_)
        (.inr (.inr ⟨h_single, d, List.mem_singleton_self d, .inl ⟨hd, h_unmaps, ?_⟩⟩))⟩
    · refine List.forall_mem_append.mpr ⟨List.forall_mem_cons.mpr ⟨not_isGood_received q d,
        fun e he => not_isGood_transfer q (h_writes.transfer e he)⟩, ?_⟩
      simp [not_isGood_ioError]
    · rw [h_lock] at h_why
      refine h_why.imp_right ?_
      rintro ⟨e, he, h_e⟩
      exact ⟨e, List.mem_append_right _ (List.mem_append_left _ (List.mem_cons_of_mem _ he)), h_e⟩
  | @syncFalse session hses hd halign hwritten hfua hsync =>
    obtain rfl := h_session hses
    exact absurd hfua (by simp [sameSession])
  | @delivered session session' c₂ hses hd hdel hF =>
    obtain ⟨new, h_does, h_new⟩ := (DataOutOutcome.delivered hses hd hdel hF).quiet q
      fun _ _ h => absurd (hF.symm.trans h) (by simp)
    exact ⟨_, new, h_serve, h_does, iff_of_true (h_silent h_new)
      (.inr (.inl (List.forall_mem_singleton.mpr (.inl hF))))⟩
  | @finished session session' c₂ hses hdel hF =>
    obtain rfl := h_session hses
    -- it is taken, the medium stays, and the GOOD is for the command
    obtain ⟨ok, asked, h_close, -, h_asked⟩ := does_closeBatch (T := T) c₂ session' d.tag
    obtain ⟨h_pdu, h_disk, es, h_does, h_calls, h_data⟩ := hdel.same hB
    have h_none : ∀ e ∈ evs ++ ((.received d :: es) ++ (.sent (goodPdu T session') ok :: asked)),
        ¬ e.Failed := by
      refine List.forall_mem_append.mpr ⟨fun e he => (h_evs e he).2, List.forall_mem_append.mpr
        ⟨List.forall_mem_cons.mpr ⟨by simp [Event.Failed], h_calls⟩,
          List.forall_mem_cons.mpr ⟨by simp [Event.Failed], fun e he => ?_⟩⟩⟩
      obtain ⟨ok', rfl⟩ := h_asked e he
      simp [Event.Failed]
    have h_good : ∃ e ∈ evs ++ ((.received d :: es) ++ (.sent (goodPdu T session') ok :: asked)),
        IsGood q e := by
      refine ⟨.sent (goodPdu T session') ok, by simp, rfl, ?_⟩
      show session'.pduInitiator.getItasktag = q.bhs.getItasktag
      rw [h_pdu]
    refine ⟨_, _, h_serve, h_does.trans h_close, ?_⟩
    have h_stays : medium (closeBatch T c₂ session' d.tag).scsi.disk = medium c.scsi.disk :=
      (congrArg medium (closeBatch_disk c₂ session' d.tag)).trans (h_disk.trans h_medium)
    rw [sameTruth_of_unchanged h_good h_none h_stays]
    -- none of the ways without a GOOD has been taken
    refine ⟨fun h => .inr (.inr ⟨h_single, d, List.mem_singleton_self d, .inr h⟩), fun h => ?_⟩
    rcases h with h | h | ⟨-, d', h_d', h⟩
    · exact absurd (h_chosen.symm.trans h) (by simp)
    · rcases h d (List.mem_singleton_self d) with h | ⟨hd, h⟩
      · exact absurd (hF.symm.trans h) (by simp)
      · exact absurd (h_data.resolve_left hd).1 h
    obtain rfl := List.mem_singleton.mp h_d'
    rcases h with ⟨hd, h_unmaps, h⟩ | h
    · rcases h with hl | ⟨e, he, h_e⟩
      · exact absurd (h_lock.trans hl) ((h_data.resolve_left hd).2 h_unmaps)
      · exact absurd h_e (h_none e he)
    · exact h

/-- A command that is accepted, and asks for its data. The check for that
compares the number of blocks with the size of one. -/
theorem serve_sameAsked (hq : q.IsWriteSame) (hcheck : writeCheck T c q = none)
    (hask : SameAsked T q) :
    serve T fuel c q = .ok (openR2t T (sameTask q) (c.receive q) q) := by
  obtain ⟨hd, hn, hlen⟩ := hask
  obtain ⟨c', h_serve, h_out⟩ := @serve_writeSame _ T fuel c q hq fun _ hcount _ => by
    rw [hd, List.length_nil, Nat.zero_div] at hcount
    exact absurd hcount (by decide)
  -- every other outcome is for a command of another kind
  cases h_out with
  | refused hcheck' => exact absurd (hcheck.symm.trans hcheck') (by simp)
  | miscounted _ hd' | tooLong _ hd' | looped _ hd' => exact absurd hd hd'
  | asked => exact h_serve
  | mismatch _ _ _ hlen' => exact absurd hlen hlen'
  | nothing _ _ hn' => exact absurd hn hn'

/-- **A command that is answered with an R2T**, to its end. One direction holds
for any number of Data-Outs, the other for one at most. -/
theorem sameTruth_asked (hB : T.backend.Stores medium) (hcheck : writeCheck T c q = none)
    (hask : SameAsked T q) (hds : SameReply T c q ds)
    (h_serve : serve T fuel c q = .ok (openR2t T (sameTask q) (c.receive q) q)) :
    ∃ data c' evs, SameRun T fuel c q ds data c' evs ∧
      (SameHonest T medium c q ds evs → SameTruth T medium c q data c' evs) ∧
      (SameSingle T c q ds → SameTruth T medium c q data c' evs →
        SameHonest T medium c q ds evs) := by
  have h_honest (evs : List Event) :
      SameHonest T medium c q ds evs ↔ SameIdle T medium c q ds evs := by
    unfold SameHonest
    simp [hcheck, hask, hask.1]
  have h_received : c.scsi.Does (c.receive q).scsi [.received q] := Scsi.does_note _
  cases h_tag : (sameTag T c q).2 with
  | false =>
    -- no tag could be chosen, and nothing is sent
    have h_same : (openR2t T (sameTask q) (c.receive q) q).scsi = (c.receive q).scsi := by
      have h_tag' : (chooseTtt T (c.receive q).scsi.history q.bhs.getItasktag).2 = false := h_tag
      rw [openR2t, if_neg (by rw [h_tag']; decide)]
      rfl
    refine ⟨_, _, [.received q], .alone h_serve (h_same ▸ h_received) (by simp), fun _ => ?_,
      fun _ _ => (h_honest _).mpr (.inl h_tag)⟩
    exact sameTruth_of_quiet (by simp [not_isGood_received])
  | true =>
    have h_tag' : (chooseTtt T (c.receive q).scsi.history q.bhs.getItasktag).2 = true := h_tag
    obtain ⟨p, h_p, h_does⟩ : ∃ p : R2tPdu, p.ttt = (sameTag T c q).1 ∧
        (c.receive q).scsi.Does (openR2t T (sameTask q) (c.receive q) q).scsi
          [.sent (.r2t p) (T.send (c.receive q).scsi.history)] := by
      have h_open := does_openR2t (T := T) (sameTask q) (c.receive q) q
      rw [if_pos h_tag'] at h_open
      exact ⟨_, rfl, h_open⟩
    have h_sent : ∀ e ∈ [.received q, .sent (.r2t p) (T.send (c.receive q).scsi.history)],
        ¬ IsGood q e ∧ ¬ e.Failed := by simp [IsGood, Event.Failed]
    have h_tags : ∀ d ∈ ds, d.tag = p.ttt := fun d hd => (hds.tag d hd).trans h_p.symm
    by_cases h_single : SameSingle T c q ds ∧ ds ≠ []
    · -- one Data-Out, for the R2T session of this command
      obtain ⟨d, rfl⟩ : ∃ d, ds = [d] := List.length_eq_one_iff.mp
        (le_antisymm h_single.1.1 (List.length_pos_iff.mpr h_single.2))
      have h_d := List.mem_singleton_self d
      have h_ses : (openR2t T (sameTask q) (c.receive q) q).ses.getR2tSesion d.tag =
          some (sameSession q) := by
        have h_fresh : (c.receive q).ses.getR2tSesion (sameTag T c q).1 = none := h_single.1.2
        rw [hds.tag d h_d, openR2t, Conn.answer_ses]
        exact Session.getR2tSesion_initR2tSession_of_none _ h_fresh
      obtain ⟨c', evs', h_serve', h_does', h_iff⟩ := @sameTruth_dataOut _ T medium fuel c q d hB _
        (hds.opcode d h_d) h_ses (h_received.trans h_does).lockingStatus
        (congrArg medium (openR2t_disk _ _ _)) h_tag h_single.1 _ h_sent
      refine ⟨_, c', _, .asked h_serve (h_received.trans h_does)
        (List.mem_cons_of_mem _ List.mem_cons_self) h_tags
        (Machine.run_cons_ok h_serve') h_does', ?_⟩
      rw [h_honest, List.flatMap_singleton]
      exact ⟨h_iff.mpr, fun _ => h_iff.mp⟩
    · -- no Data-Out, or more than one: what can be said is that none of them ends a burst
      obtain ⟨c', evs', h_run, h_does', h_quiet⟩ :=
        @quiet_dataOuts _ T fuel _ q hds.opcode (openR2t T (sameTask q) (c.receive q) q)
      refine ⟨_, c', _, .asked h_serve (h_received.trans h_does)
        (List.mem_cons_of_mem _ List.mem_cons_self) h_tags h_run h_does', fun h => ?_,
        fun h_one _ => (h_honest _).mpr (.inr (.inl ?_))⟩
      · rcases (h_honest _).mp h with h | h | ⟨h_one, d, hd, -⟩
        · exact absurd (h_tag.symm.trans h) (by simp)
        · exact sameTruth_of_quiet
            (List.forall_mem_append.mpr ⟨fun e he => (h_sent e he).1, h_quiet h⟩)
        · exact absurd ⟨h_one, List.ne_nil_of_mem hd⟩ h_single
      · have h_nil : ds = [] := by
          by_contra h_ne
          exact h_single ⟨h_one, h_ne⟩
        simp [h_nil]

/-- **WRITE SAME tells the truth** when it is refused, or it has come with its
block and no backend call fails (inside the device), or it has come without data
and finds its range as it should be, or asks for the data and no GOOD is sent
afterwards. It does so in no other case, as long as an R2T is answered with the
one Data-Out. -/
theorem sameTruth_iff (hB : T.backend.Stores medium) (h_fuel : T.build.maxWsLen.toNat < fuel)
    (c : Conn β) (hq : q.IsWriteSame) (hds : SameAsked T q → SameReply T c q ds) :
    ∃ data c' evs, SameRun T fuel c q ds data c' evs ∧
      (SameHonest T medium c q ds evs → SameTruth T medium c q data c' evs) ∧
      ((SameAsked T q → SameSingle T c q ds) → SameTruth T medium c q data c' evs →
        SameHonest T medium c q ds evs) := by
  obtain ⟨c', h_serve, h_out⟩ := @serve_writeSame _ T fuel c q hq
    fun hcheck hcount hlong => ⟨_, sameLoop_eq hB h_fuel hcheck hcount hlong⟩
  have h_received : c.scsi.Does (c.receive q).scsi [.received q] := Scsi.does_note _
  have h_both {data : Bytes} {c' : Conn β} {evs : List Event}
      (h : SameTruth T medium c q data c' evs ↔ SameHonest T medium c q ds evs) :
      (SameHonest T medium c q ds evs → SameTruth T medium c q data c' evs) ∧
        ((SameAsked T q → SameSingle T c q ds) → SameTruth T medium c q data c' evs →
          SameHonest T medium c q ds evs) := ⟨h.mpr, fun _ => h.mp⟩
  -- by the way the command ends; the loop, the commands without data and those that ask for it can
  -- lie
  cases h_out with
  | @refused sense hcheck =>
    obtain ⟨evs, h_does, h_r2t, h_good, h_failed⟩ := @sameTruth_of_answer _ T c q _ [] sense none
      h_received (by simp) (by simp)
    refine ⟨_, _, evs, .alone h_serve h_does h_r2t, h_both
      (iff_of_true (sameTruth_of_quiet fun e he h_e => ?_) (.inl (by rw [hcheck]; simp)))⟩
    exact sense_ne_nil hcheck (h_good.mp ⟨e, he, h_e⟩)
  | miscounted hcheck hd hcount =>
    exact ⟨_, _, _, .alone h_serve h_received (by simp), h_both
      (iff_of_true (sameTruth_of_quiet (by simp [not_isGood_received]))
        (.inr (.inl ⟨hd, .inl hcount⟩)))⟩
  | tooLong hcheck hd hcount hlong =>
    obtain ⟨evs, h_does, h_r2t, h_good, h_failed⟩ := @sameTruth_of_answer _ T c q _ []
      errorInvalidField none h_received (by simp) (by simp)
    refine ⟨_, _, evs, .alone h_serve h_does h_r2t, h_both
      (iff_of_true (sameTruth_of_quiet fun e he h_e => ?_)
        (.inr (.inl ⟨hd, .inr (.inl hlong)⟩)))⟩
    exact absurd (h_good.mp ⟨e, he, h_e⟩) (by simp [errorInvalidField, fixedSense])
  | @looped r hcheck hd hcount hlong hloop =>
    have h_r := Except.ok.inj ((sameLoop_eq hB h_fuel hcheck hcount hlong).symm.trans hloop)
    obtain ⟨evs, h_does, h_r2t, h_iff⟩ := sameTruth_looped hB h_r hcheck hd hcount hlong
    exact ⟨_, _, evs, .alone h_serve h_does h_r2t, h_both h_iff⟩
  | asked hcheck hd hn hlen =>
    have hask : SameAsked T q := ⟨hd, hn, hlen⟩
    obtain ⟨data, c', evs, h_run, h_true, h_only⟩ :=
      sameTruth_asked hB hcheck hask (hds hask) h_serve
    exact ⟨data, c', evs, h_run, h_true, fun h => h_only (h hask)⟩
  | mismatch hcheck hd hn hlen =>
    obtain ⟨evs, h_does, h_r2t, h_iff⟩ := sameTruth_nothing hcheck hd fun h => hlen h.2.2
    exact ⟨_, _, evs, .alone h_serve h_does h_r2t, h_both h_iff⟩
  | nothing hcheck hd hn =>
    obtain ⟨evs, h_does, h_r2t, h_iff⟩ := sameTruth_nothing hcheck hd fun h => hn h.2.1
    exact ⟨_, _, evs, .alone h_serve h_does h_r2t, h_both h_iff⟩

/-- WRITE SAME(10) of three blocks from address 2. -/
def Sample.sameThree : Pdu := Sample.command 5 16 (Sample.cdb10 0x41 0 2 3) (Sample.block 7)

theorem Sample.isWriteSame_sameThree : Sample.sameThree.IsWriteSame :=
  ⟨by decide +kernel, by decide +kernel⟩

/-- WRITE SAME(10) of sixteen blocks from address 0. It announces 256 bytes and
comes without data, so that it is answered with an R2T. -/
def Sample.sameSixteen : Pdu :=
  { bhs :=
      (#v[0x01, 0x80, 0, 0, 0, 0, 0, 0, 0, 0, 0, 0, 0, 0, 0, 0,
        5, 0, 0, 0, 0, 0, 1, 0, 0, 0, 0, 0, 0, 0, 0, 0,
        0x41, 0, 0, 0, 0, 0, 0, 0, 16, 0, 0, 0, 0, 0, 0, 0] : Vector UInt8 48)
    data := []
    data_lt := Pdu.nil_lt }

theorem Sample.isWriteSame_sameSixteen : Sample.sameSixteen.IsWriteSame :=
  ⟨by decide +kernel, by decide +kernel⟩

theorem Sample.sameAsked_sixteen : SameAsked (Sample.target 16) Sample.sameSixteen :=
  ⟨rfl, by decide +kernel, by decide +kernel⟩

/-- A Data-Out with one block, for the R2T. -/
def Sample.sameBlock (b : UInt8) : Pdu := Sample.blockOut 0 true b

theorem Sample.sameReply_block (b : UInt8) :
    SameReply (Sample.target 16) (Sample.conn 16 []) Sample.sameSixteen [Sample.sameBlock b] :=
  have h_op : (Sample.sameBlock 0).bhs.getOpcode = .scsiDataOut := by decide +kernel
  have h_tag : (Sample.sameBlock 0).tag =
      (sameTag (Sample.target 16) (Sample.conn 16 []) Sample.sameSixteen).1 := by decide +kernel
  ⟨List.forall_mem_singleton.mpr h_op, List.forall_mem_singleton.mpr h_tag⟩

theorem Sample.sameSingle_block (b : UInt8) :
    SameSingle (Sample.target 16) (Sample.conn 16 []) Sample.sameSixteen [Sample.sameBlock b] :=
  ⟨le_rfl, rfl⟩

/-- When every write succeeds, the answer is a true one. So is the one after an
R2T when the block is what all of the range holds already. -/
theorem sameTruth_three :
    (∃ data c' evs,
      SameRun (Sample.target 8) 300 (Sample.conn 8 []) Sample.sameThree [] data c' evs ∧
        SameTruth (Sample.target 8) Ram.contents (Sample.conn 8 []) Sample.sameThree data c' evs) ∧
    ∃ data c' evs,
      SameRun (Sample.target 16) 300 (Sample.conn 16 []) Sample.sameSixteen [Sample.sameBlock 0]
          data c' evs ∧
        SameTruth (Sample.target 16) Ram.contents (Sample.conn 16 []) Sample.sameSixteen data c'
          evs := by
  constructor
  · obtain ⟨data, c', evs, h_run, h_true, -⟩ := @sameTruth_iff _ (Sample.target 8) Ram.contents 300
      Sample.sameThree [] (ramBackend_stores 16 (by decide) (by decide) 8) (by decide)
      (Sample.conn 8 []) Sample.isWriteSame_sameThree fun h => absurd h.1 (by decide)
    refine ⟨data, c', evs, h_run, h_true (.inr (.inl ⟨by decide +kernel,
      .inr (.inr (.inr ⟨by decide +kernel, ?_⟩))⟩))⟩
    have h_eval : (serve (Sample.target 8) 300 (Sample.conn 8 []) Sample.sameThree).toOption.any
        (fun c => decide (∀ e ∈ c.scsi.history, ¬ e.Failed)) = true := by decide +kernel
    obtain ⟨c₁, h_serve', h_calls⟩ := Machine.exists_ok_of_any h_eval
    obtain rfl := Except.ok.inj (h_serve'.symm.trans h_run.serve_of_nil)
    rw [h_run.does.history] at h_calls
    exact h_calls
  · obtain ⟨data, c', evs, h_run, h_true, -⟩ := @sameTruth_iff _ (Sample.target 16) Ram.contents 300
      Sample.sameSixteen [Sample.sameBlock 0]
      (ramBackend_stores 16 (by decide) (by decide) 16) (by decide)
      (Sample.conn 16 []) Sample.isWriteSame_sameSixteen fun _ => Sample.sameReply_block 0
    -- the device is new, so every block is the one of zeros that the Data-Out brings
    have h_filled : SameFilled (Sample.target 16) (Sample.conn 16 []) Sample.sameSixteen
        (Sample.block 0) (Ram.contents (Sample.conn 16 []).scsi.disk) :=
      fun b h_b => ⟨h_b.2, rfl⟩
    exact ⟨data, c', evs, h_run, h_true (.inr (.inr (.inl ⟨Sample.sameAsked_sixteen,
      .inr (.inr ⟨Sample.sameSingle_block 0, _, List.mem_singleton_self _, .inr h_filled⟩)⟩)))⟩

/-- The second of three writes fails, and the answer is GOOD. It is GOOD as well
after an R2T, when the block that the Data-Out has brought is nowhere on the
device. -/
theorem sameTruth_fails :
    (∃ c', serve (Sample.target 8) 300 (Sample.conn 8 [true, false]) Sample.sameThree = .ok c' ∧
      (∃ e ∈ c'.scsi.history, e.Failed) ∧
      ¬ SameTruth (Sample.target 8) Ram.contents (Sample.conn 8 [true, false]) Sample.sameThree
        Sample.sameThree.data c' c'.scsi.history) ∧
    ∃ data c' evs,
      SameRun (Sample.target 16) 300 (Sample.conn 16 []) Sample.sameSixteen [Sample.sameBlock 7]
          data c' evs ∧
        ¬ SameTruth (Sample.target 16) Ram.contents (Sample.conn 16 []) Sample.sameSixteen data c'
          evs := by
  constructor
  · have h_eval : (serve (Sample.target 8) 300 (Sample.conn 8 [true, false])
        Sample.sameThree).toOption.any (fun c => decide ((∃ e ∈ c.scsi.history, e.Failed) ∧
          ∃ e ∈ c.scsi.history, IsGood Sample.sameThree e)) = true := by decide +kernel
    obtain ⟨c', h_serve, h_failed, e, he, h_good⟩ := Machine.exists_ok_of_any h_eval
    exact ⟨c', h_serve, h_failed, fun h => h.failed h_failed e he h_good⟩
  · -- the one Data-Out ends the burst and is taken, and every block is still full of zeros
    obtain ⟨data, c', evs, h_run, -, h_only⟩ := @sameTruth_asked _ (Sample.target 16) Ram.contents
      300 (Sample.conn 16 []) Sample.sameSixteen [Sample.sameBlock 7]
      (ramBackend_stores 16 (by decide) (by decide) 16) (by decide +kernel)
      Sample.sameAsked_sixteen (Sample.sameReply_block 7)
      (serve_sameAsked Sample.isWriteSame_sameSixteen (by decide +kernel) Sample.sameAsked_sixteen)
    refine ⟨data, c', evs, h_run, fun h => ?_⟩
    have h_block : (Ram.contents (Sample.conn 16 []).scsi.disk).slice 0 16 ≠ Sample.block 7 := by
      decide
    rcases h_only (Sample.sameSingle_block 7) h with h | ⟨h, -⟩ | ⟨-, h | h | ⟨-, d, hd, h⟩⟩ |
      ⟨-, h, -⟩
    · exact h (by decide +kernel)
    · exact h rfl
    · exact absurd h (by decide +kernel)
    · rcases h _ (List.mem_singleton_self _) with h | ⟨-, h⟩
      · exact absurd h (by decide +kernel)
      · exact h (by decide +kernel)
    · obtain rfl := List.mem_singleton.mp hd
      rcases h with ⟨-, h, -⟩ | h
      · exact absurd h (by decide +kernel)
      · exact h_block (h 0 ⟨Nat.zero_le _, by decide +kernel⟩).2
    · exact h Sample.sameAsked_sixteen

end IscsiTarget
