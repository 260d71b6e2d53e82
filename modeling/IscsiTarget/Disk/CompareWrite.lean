import IscsiTarget.Commands.Refusal
import IscsiTarget.Commands.Bounds
import IscsiTarget.Write.Command
import IscsiTarget.Answers.Sent

/-!
# What the answer to a COMPARE AND WRITE says

`Backend.Swaps` is the contract of `cmpwrite` for the one block `compare_and_write` asks
for. Over it `serve_compareAndWrite` says what becomes of the command, one case for each
answer (`CompareOutcome`): it is refused, the device is reserved, the block is exchanged, it
differs, or the backend has failed. Only when the block is exchanged has the medium changed,
up to a backend that fails half-way.

`compareTruth` reads this from the side of the initiator, who sees the sense data of one SCSI
Response and nothing else. That the answer is a write error says only that the backend has
reported an error (`CompareFails`); how far the exchange has got then is not known.
-/

namespace IscsiTarget

variable {β : Type} {T : Target β} {medium : β → Medium UInt8}

/-- The contract of `cmpwrite` for at most one block inside the device, given
two full buffers. -/
structure Backend.Swaps (B : Backend β) (medium : β → Medium UInt8) : Prop where
  /-- The block is what it is compared with, and is exchanged. -/
  ok : ∀ d blockNr n dataWrite dataCompare, B.InRange d blockNr n → n.toNat ≤ 1 →
    n.toNat * B.getBlockSize ≤ dataWrite.length → n.toNat * B.getBlockSize ≤ dataCompare.length →
    (B.cmpwrite d blockNr n dataWrite dataCompare).1 = .ok →
    (medium d).slice (blockNr.toNat * B.getBlockSize) (n.toNat * B.getBlockSize) =
        dataCompare.take (n.toNat * B.getBlockSize) ∧
      medium (B.cmpwrite d blockNr n dataWrite dataCompare).2 =
        (medium d).store (blockNr.toNat * B.getBlockSize)
          (dataWrite.take (n.toNat * B.getBlockSize))
  /-- The block is another one, and stays. -/
  mismatch : ∀ d blockNr n dataWrite dataCompare, B.InRange d blockNr n → n.toNat ≤ 1 →
    n.toNat * B.getBlockSize ≤ dataWrite.length → n.toNat * B.getBlockSize ≤ dataCompare.length →
    (B.cmpwrite d blockNr n dataWrite dataCompare).1 = .mismatch →
    (medium d).slice (blockNr.toNat * B.getBlockSize) (n.toNat * B.getBlockSize) ≠
        dataCompare.take (n.toNat * B.getBlockSize) ∧
      medium (B.cmpwrite d blockNr n dataWrite dataCompare).2 = medium d
  /-- The device keeps its size. -/
  size : ∀ d blockNr n dataWrite dataCompare, B.InRange d blockNr n →
    B.getSizeInBlocks (B.cmpwrite d blockNr n dataWrite dataCompare).2 = B.getSizeInBlocks d

/-- The backend in memory keeps the contract: it compares as a whole, and stores
only after that. -/
theorem ramBackend_swaps (bs : ℕ) (hpos : 0 < bs) (hlt : bs < 2 ^ 32) (size : UInt64) :
    (ramBackend bs hpos hlt size).Swaps Ram.contents where
  -- the next call fails as scripted, or compares and stores
  ok := by
    intro r blockNr n dataWrite dataCompare _ _ _ _ h_ok
    simp only [ramBackend] at h_ok ⊢
    split at h_ok
    · exact absurd h_ok (by simp)
    · next h_script =>
      split at h_ok
      · next h_match =>
        rw [if_neg h_script, if_pos h_match]
        exact ⟨h_match, rfl⟩
      · exact absurd h_ok (by simp)
  mismatch := by
    intro r blockNr n dataWrite dataCompare _ _ _ _ h_mismatch
    simp only [ramBackend] at h_mismatch ⊢
    split at h_mismatch
    · exact absurd h_mismatch (by simp)
    · next h_script =>
      split at h_mismatch
      · exact absurd h_mismatch (by simp)
      · next h_differs =>
        rw [if_neg h_script, if_neg h_differs]
        exact ⟨h_differs, rfl⟩
  size _ _ _ _ _ _ := rfl

/-! ### The command -/

namespace Pdu

variable (q : Pdu)

/-- The address of a COMPARE AND WRITE: eight bytes of the CDB, which
`compare_and_write` reads itself. -/
def compareLba : UInt64 :=
  getUint64 (getElem q.bhs.getCdb 2 Cdb.lt2) (getElem q.bhs.getCdb 3 Cdb.lt3)
    (getElem q.bhs.getCdb 4 Cdb.lt4) (getElem q.bhs.getCdb 5 Cdb.lt5)
    (getElem q.bhs.getCdb 6 Cdb.lt6) (getElem q.bhs.getCdb 7 Cdb.lt7)
    (getElem q.bhs.getCdb 8 Cdb.lt8) (getElem q.bhs.getCdb 9 Cdb.lt9)

/-- The number of its blocks. -/
def compareCount : UInt32 := (getElem q.bhs.getCdb 13 Cdb.lt13).toUInt32

variable (T)

/-- What the blocks are compared with. -/
def compared : Bytes := q.data.take (T.nBytes q.compareCount)

/-- What they are exchanged for. -/
def replacement : Bytes := (q.data.drop (T.nBytes q.compareCount)).take (T.nBytes q.compareCount)

/-- The blocks hold what they are compared with. -/
def Matches (m : Medium UInt8) : Prop :=
  m.slice (q.compareLba.toNat * T.blockSize) (T.nBytes q.compareCount) = q.compared T

instance (m : Medium UInt8) : Decidable (q.Matches T m) := inferInstanceAs (Decidable (_ = _))

end Pdu

/-- What the backend says when it is asked to carry the command out. -/
def compareResult (T : Target β) (s : Scsi β) (q : Pdu) : CmpwriteResult :=
  (T.backend.cmpwrite s.disk q.compareLba q.compareCount
    (q.data.drop (T.nBytes q.compareCount)) q.data).1

/-- The backend reports an error: it has not read the block, or not written it. -/
def CompareFails (T : Target β) (s : Scsi β) (q : Pdu) : Prop :=
  compareResult T s q = .readError ∨ compareResult T s q = .writeError

instance (s : Scsi β) (q : Pdu) : Decidable (CompareFails T s q) :=
  inferInstanceAs (Decidable (_ ∨ _))

/-- What becomes of a COMPARE AND WRITE: the sense data of the answer, and the
state. The backend is called in the last three cases, once; the medium is
different afterwards only when it held what was expected, or when the backend
failed on the way. -/
inductive CompareOutcome (T : Target β) (medium : β → Medium UInt8) (q : Pdu) (s : Scsi β) :
    Bytes → Scsi β → Prop
  /-- Too many blocks, or not inside the device. -/
  | refused {sense : Bytes}
    (h : 1 < q.compareCount.toNat ∨ s.size T < q.compareLba.toNat + q.compareCount.toNat)
    (h_sense : sense = errorOutOfRange ∨ sense = errorCompareAndWriteCount) :
    CompareOutcome T medium q s sense s
  /-- Another session has the reservation. -/
  | conflict (h : s.lockingStatus T = .lockedOther) :
    CompareOutcome T medium q s errorReservationConflict1 s
  | exchanged {s' : Scsi β} (h : q.Matches T (medium s.disk))
    (h_does : s.Does s' [.io (.cmpwrite q.compareLba q.compareCount) true])
    (h_medium : medium s'.disk =
      (medium s.disk).store (q.compareLba.toNat * T.blockSize) (q.replacement T))
    (h_size : s'.size T = s.size T) (h_result : compareResult T s q = .ok) :
    CompareOutcome T medium q s [] s'
  | differs {s' : Scsi β} (h : ¬ q.Matches T (medium s.disk))
    (h_does : s.Does s' [.io (.cmpwrite q.compareLba q.compareCount) false])
    (h_medium : medium s'.disk = medium s.disk) (h_size : s'.size T = s.size T)
    (h_result : compareResult T s q = .mismatch) : CompareOutcome T medium q s errorMiscompare s'
  /-- The backend has failed, before it wrote or on the way. -/
  | failed {s' : Scsi β} (h : CompareFails T s q)
    (h_does : s.Does s' [.io (.cmpwrite q.compareLba q.compareCount) false])
    (h_size : s'.size T = s.size T) : CompareOutcome T medium q s errorWriteError s'

namespace Scsi

/-- `cmpwrite` of a device that is not reserved by another session. -/
theorem does_cmpwrite {s : Scsi β} (h : s.lockingStatus T ≠ .lockedOther) (blockNr : UInt64)
    (n : UInt32) (dataWrite dataCompare : Bytes) :
    s.Does (s.cmpwrite T blockNr n dataWrite dataCompare).2 [.io (.cmpwrite blockNr n)
        ((T.backend.cmpwrite s.disk blockNr n dataWrite dataCompare).1 == .ok)] ∧
      (s.cmpwrite T blockNr n dataWrite dataCompare).2.disk =
        (T.backend.cmpwrite s.disk blockNr n dataWrite dataCompare).2 := by
  rw [cmpwrite, if_pos h]
  exact ⟨⟨rfl, rfl⟩, rfl⟩

/-- The checks that only other commands have. -/
theorem validateCdb_of_compareAndWrite (n : UInt32) {cdb : Cdb}
    (h : cdb.opcode = .compareAndWrite) : validateCdb T n cdb = none := by
  simp [validateCdb, h, ScsiOpcode.isWriteSame, ScsiOpcode.checksWrProtect]

/-- On a device with a block, the range check is exact for at most one block. -/
theorem validateRequest_block_iff {s : Scsi β} (h_size : 0 < s.size T) {lba : UInt64}
    {n : UInt32} (h_one : n.toNat ≤ 1) {cdb : Cdb} (h : cdb.opcode = .compareAndWrite) :
    s.validateRequest T lba n (some cdb) = none ↔ lba.toNat + n.toNat ≤ s.size T := by
  have h_lt : s.size T < 2 ^ 64 := (s.getSizeInBlocks T).toNat_lt
  rw [validateRequest_cdb_eq_none_iff, validateRequest_eq_none_iff,
    and_iff_left (validateCdb_of_compareAndWrite n h)]
  omega

/-- A refusal by the range check. -/
theorem eq_outOfRange {s : Scsi β} {lba : UInt64} {n : UInt32} {cdb : Cdb} {sense : Bytes}
    (h_op : cdb.opcode = .compareAndWrite)
    (h : s.validateRequest T lba n (some cdb) = some sense) : sense = errorOutOfRange := by
  unfold validateRequest at h
  split at h
  · exact (Option.some.inj h).symm
  · split at h
    · exact (Option.some.inj h).symm
    · dsimp only at h
      rw [validateCdb_of_compareAndWrite n h_op] at h
      exact absurd h (by simp)

/-- The outcome of the call, when the backend is reached. There are three:
exchanged, different, and failed. -/
theorem cmpwrite_outcome (hC : T.backend.Swaps medium) {s : Scsi β} {q : Pdu}
    (hl : s.lockingStatus T ≠ .lockedOther) (h_one : q.compareCount.toNat ≤ 1)
    (h_inside : q.compareLba.toNat + q.compareCount.toNat ≤ s.size T)
    (h_data : T.nBytes q.compareCount * 2 ≤ q.data.length) (rc : RwResult) (s' : Scsi β)
    (h : s.cmpwrite T q.compareLba q.compareCount (q.data.drop (T.nBytes q.compareCount)) q.data =
      (rc, s')) :
    rc = .ok ∧ CompareOutcome T medium q s [] s' ∨
      rc = .failMismatch ∧ CompareOutcome T medium q s errorMiscompare s' ∨
      rc = .failRw ∧ CompareOutcome T medium q s errorWriteError s' := by
  obtain ⟨h_does, h_disk⟩ := does_cmpwrite hl q.compareLba q.compareCount
    (q.data.drop (T.nBytes q.compareCount)) q.data
  -- both halves are there
  have h_write : q.compareCount.toNat * T.backend.getBlockSize ≤
      (q.data.drop (T.nBytes q.compareCount)).length := by
    rw [List.length_drop]
    change T.nBytes q.compareCount ≤ _
    omega
  have h_compare : q.compareCount.toNat * T.backend.getBlockSize ≤ q.data.length := by
    change T.nBytes q.compareCount ≤ _
    omega
  have h_size := congrArg UInt64.toNat (hC.size s.disk q.compareLba q.compareCount
    (q.data.drop (T.nBytes q.compareCount)) q.data h_inside)
  rw [← h_disk] at h_size
  have h_rc : rc = (s.cmpwrite T q.compareLba q.compareCount
    (q.data.drop (T.nBytes q.compareCount)) q.data).1 := by rw [h]
  rw [h] at h_does h_disk h_size
  unfold cmpwrite at h_rc
  rw [if_pos hl] at h_rc
  cases h_result : (T.backend.cmpwrite s.disk q.compareLba q.compareCount
    (q.data.drop (T.nBytes q.compareCount)) q.data).1 <;> simp only [h_result] at h_rc h_does
  -- what the backend returns decides the result, and its contract says what that means for the
  -- medium
  case ok =>
    obtain ⟨h_matches, h_medium⟩ :=
      hC.ok s.disk _ _ _ _ h_inside h_one h_write h_compare h_result
    rw [← h_disk] at h_medium
    exact .inl ⟨h_rc, .exchanged h_matches h_does h_medium h_size h_result⟩
  case mismatch =>
    obtain ⟨h_differs, h_medium⟩ :=
      hC.mismatch s.disk _ _ _ _ h_inside h_one h_write h_compare h_result
    rw [← h_disk] at h_medium
    exact .inr (.inl ⟨h_rc, .differs h_differs h_does h_medium h_size h_result⟩)
  case readError =>
    exact .inr (.inr ⟨h_rc, .failed (.inl h_result) h_does h_size⟩)
  case writeError =>
    exact .inr (.inr ⟨h_rc, .failed (.inr h_result) h_does h_size⟩)

/-- **The outcome**, with what else the answer consists of. The checks are gone
through in the order of the code; behind them the backend decides. -/
theorem compareAndWrite_outcome (hC : T.backend.Swaps medium) {s : Scsi β}
    (h_size : 0 < s.size T) {q : Pdu} (h_op : q.bhs.getCdb.opcode = .compareAndWrite)
    (h_fits : s.CompareFits T q.bhs.getCdb q.data) :
    ∃ r s', s.compareAndWrite T q.bhs.getCdb q.data = .ok (r, s') ∧ r.inlineData = none ∧
      r.location.nSectors = 0 ∧
      (r.type = .emptySense ∨ r.type = .asIs ∧ r.senseData ≠ []) ∧
      CompareOutcome T medium q s r.senseData s' := by
  have h_many_iff : q.compareCount > maxCompareAndWriteBlockCount ↔ 1 < q.compareCount.toNat :=
    UInt32.lt_iff_toNat_lt
  change s.validateRequest T q.compareLba q.compareCount (some q.bhs.getCdb) ≠ none ∨
    q.compareCount > maxCompareAndWriteBlockCount ∨ s.lockingStatus T = .lockedOther ∨
      T.nBytes q.compareCount * 2 ≤ q.data.length at h_fits
  unfold compareAndWrite
  dsimp only
  split
  · next sense h_valid =>
    change s.validateRequest T q.compareLba q.compareCount _ = some sense at h_valid
    obtain rfl := eq_outOfRange h_op h_valid
    refine ⟨_, _, rfl, rfl, rfl, .inr ⟨rfl, by simp [errorOutOfRange, fixedSense]⟩,
      .refused ?_ (.inl rfl)⟩
    by_contra h_not
    rw [not_or, not_lt, not_lt] at h_not
    rw [(validateRequest_block_iff h_size h_not.1 h_op).mpr h_not.2] at h_valid
    exact absurd h_valid (by simp)
  · next h_valid =>
    change s.validateRequest T q.compareLba q.compareCount _ = none at h_valid
    rw [h_valid] at h_fits
    split
    · next h_many =>
      exact ⟨_, _, rfl, rfl, rfl,
        .inr ⟨rfl, by simp [errorCompareAndWriteCount, fixedSense]⟩,
        .refused (.inl (h_many_iff.mp h_many)) (.inr rfl)⟩
    · next h_many =>
      have h_one : q.compareCount.toNat ≤ 1 := not_lt.mp (mt h_many_iff.mpr h_many)
      by_cases hl : s.lockingStatus T = .lockedOther
      · rw [if_neg (by simp [hl]), cmpwrite, if_neg (by simp [hl])]
        exact ⟨_, _, rfl, rfl, rfl,
          .inr ⟨rfl, by simp [errorReservationConflict1, fixedSense]⟩, .conflict hl⟩
      · have h_data : T.nBytes q.compareCount * 2 ≤ q.data.length := by
          rcases h_fits with h | h | h | h
          · exact absurd rfl h
          · exact absurd h h_many
          · exact absurd h hl
          · exact h
        -- both halves are there, however far the backend gets
        rw [if_neg fun h => absurd h.2 (not_lt.mpr ((comparedBytes_le _ _ _).trans h_data))]
        have h_inside := (validateRequest_block_iff h_size h_one h_op).mp h_valid
        have h_outcome := cmpwrite_outcome hC hl h_one h_inside h_data
        split
        · next s' h_call =>
          rcases h_outcome _ s' h_call with ⟨-, h⟩ | ⟨h_rc, -⟩ | ⟨h_rc, -⟩
          · exact ⟨_, _, rfl, rfl, rfl, .inl rfl, h⟩
          · exact absurd h_rc (by simp)
          · exact absurd h_rc (by simp)
        · next s' h_call =>
          rcases h_outcome _ s' h_call with ⟨h_rc, -⟩ | ⟨h_rc, -⟩ | ⟨h_rc, -⟩ <;>
            exact absurd h_rc (by simp)
        · next s' h_call =>
          rcases h_outcome _ s' h_call with ⟨h_rc, -⟩ | ⟨-, h⟩ | ⟨h_rc, -⟩
          · exact absurd h_rc (by simp)
          · exact ⟨_, _, rfl, rfl, rfl, .inr ⟨rfl, by simp [errorMiscompare, fixedSense]⟩, h⟩
          · exact absurd h_rc (by simp)
        · next s' h_call =>
          rcases h_outcome _ s' h_call with ⟨h_rc, -⟩ | ⟨h_rc, -⟩ | ⟨-, h⟩
          · exact absurd h_rc (by simp)
          · exact absurd h_rc (by simp)
          · exact ⟨_, _, rfl, rfl, rfl, .inr ⟨rfl, by simp [errorWriteError, fixedSense]⟩, h⟩
        · next s' h_call =>
          rcases h_outcome _ s' h_call with ⟨h_rc, -⟩ | ⟨h_rc, -⟩ | ⟨h_rc, -⟩ <;>
            exact absurd h_rc (by simp)

end Scsi

/-- **A COMPARE AND WRITE is answered with one SCSI Response**, and its sense
data tells what has become of the medium. -/
theorem serve_compareAndWrite (hC : T.backend.Swaps medium) (fuel : ℕ) {c : Conn β} {q : Pdu}
    (h_size : 0 < c.scsi.size T) (hop : q.bhs.getOpcode = .scsiCmd)
    (h_op : q.bhs.getCdb.opcode = .compareAndWrite)
    (h_fits : c.scsi.CompareFits T q.bhs.getCdb q.data) :
    ∃ sense s', CompareOutcome T medium q (c.receive q).scsi sense s' ∧
      serve T fuel c q =
        .ok (({ c with scsi := s' } : Conn β).emit T (statusPdu T q sense none)) := by
  obtain ⟨r, s', h_call, h_inline, h_loc, h_type, h_outcome⟩ :=
    Scsi.compareAndWrite_outcome hC (s := (c.receive q).scsi) h_size h_op h_fits
  refine ⟨_, s', h_outcome, serve_of_status hop ?_ h_inline h_loc h_type⟩
  rw [Scsi.send, h_op]
  exact h_call

/-- Up to the SCSI Response nothing is sent. -/
theorem CompareOutcome.does {q : Pdu} {s s' : Scsi β} {sense : Bytes}
    (h : CompareOutcome T medium q s sense s') : ∃ evs, s.Does s' evs ∧ sentPdus evs = [] := by
  cases h with
  | refused | conflict => exact ⟨[], .refl s, rfl⟩
  | exchanged _ h_does | differs _ h_does | failed _ h_does => exact ⟨_, h_does, rfl⟩

/-- **COMPARE AND WRITE tells the truth.** One SCSI Response is sent and nothing
else. GOOD means that the blocks were what they were compared with and have been
exchanged, MISCOMPARE that they were not, a write error that the backend has
reported one. With every other answer but the write error the medium is what it
was. On the device, unreserved, the contents decide, unless the backend fails. -/
theorem compareTruth (hC : T.backend.Swaps medium) (fuel : ℕ) {c : Conn β} {q : Pdu}
    (h_size : 0 < c.scsi.size T) (hop : q.bhs.getOpcode = .scsiCmd)
    (h_op : q.bhs.getCdb.opcode = .compareAndWrite)
    (h_fits : c.scsi.CompareFits T q.bhs.getCdb q.data) :
    ∃ sense c', serve T fuel c q = .ok c' ∧ c.scsi.Sends c'.scsi [statusPdu T q sense none] ∧
      (sense = [] → q.Matches T (medium c.scsi.disk) ∧ medium c'.scsi.disk =
        (medium c.scsi.disk).store (q.compareLba.toNat * T.blockSize) (q.replacement T)) ∧
      (sense = errorMiscompare → ¬ q.Matches T (medium c.scsi.disk)) ∧
      (sense = errorWriteError → CompareFails T c.scsi q) ∧
      (sense ≠ [] → sense ≠ errorWriteError → medium c'.scsi.disk = medium c.scsi.disk) ∧
      (q.compareCount.toNat ≤ 1 → c.scsi.lockingStatus T ≠ .lockedOther →
        q.compareLba.toNat + q.compareCount.toNat ≤ c.scsi.size T →
        sense = if CompareFails T c.scsi q then errorWriteError
          else if q.Matches T (medium c.scsi.disk) then [] else errorMiscompare) := by
  obtain ⟨sense, s', h_outcome, h_serve⟩ := serve_compareAndWrite hC fuel h_size hop h_op h_fits
  obtain ⟨evs, h_does, h_none⟩ := h_outcome.does
  have h_quiet : c.scsi.Sends s' [] :=
    ⟨_, ((Scsi.does_note (.received q)).trans h_does).history,
      by rw [sentPdus_append, h_none]; rfl⟩
  refine ⟨sense, _, h_serve, h_quiet.after (Conn.sends_emit _ _), ?_⟩
  -- the answers are told apart by their sense data
  have h_texts : errorMiscompare ≠ [] ∧ errorWriteError ≠ [] ∧
      errorWriteError ≠ errorMiscompare := by
    simp [errorWriteError, errorMiscompare, fixedSense]
  obtain ⟨h_miscompare, h_write, h_differ⟩ := h_texts
  cases h_outcome with
  | refused h_refused h_sense =>
    have h_other : sense ≠ [] ∧ sense ≠ errorMiscompare ∧ sense ≠ errorWriteError := by
      rcases h_sense with rfl | rfl <;>
        simp [errorOutOfRange, errorCompareAndWriteCount, errorMiscompare, errorWriteError,
          fixedSense]
    refine ⟨fun h => absurd h h_other.1, fun h => absurd h h_other.2.1,
      fun h => absurd h h_other.2.2, fun _ _ => rfl, fun h_count _ h_inside => ?_⟩
    have h_size' : (c.receive q).scsi.size T = c.scsi.size T := rfl
    rw [h_size'] at h_refused
    omega
  | conflict h_locked =>
    have h_other : errorReservationConflict1 ≠ [] ∧ errorReservationConflict1 ≠ errorMiscompare ∧
        errorReservationConflict1 ≠ errorWriteError := by
      simp [errorReservationConflict1, errorMiscompare, errorWriteError, fixedSense]
    exact ⟨fun h => absurd h h_other.1, fun h => absurd h h_other.2.1,
      fun h => absurd h h_other.2.2, fun _ _ => rfl, fun _ h_free _ => absurd h_locked h_free⟩
  | exchanged h_match h_does h_medium h_size h_result =>
    have h_fine : ¬ CompareFails T c.scsi q := by
      have h_ok : compareResult T c.scsi q = .ok := h_result
      simp [CompareFails, h_ok]
    refine ⟨fun _ => ⟨h_match, h_medium⟩, fun h => absurd h.symm h_miscompare,
      fun h => absurd h.symm h_write, fun h => absurd rfl h, fun _ _ _ => ?_⟩
    exact ((if_neg h_fine).trans (if_pos h_match)).symm
  | differs h_match h_does h_medium h_size h_result =>
    have h_fine : ¬ CompareFails T c.scsi q := by
      have h_mismatch : compareResult T c.scsi q = .mismatch := h_result
      simp [CompareFails, h_mismatch]
    refine ⟨fun h => absurd h h_miscompare, fun _ => h_match, fun h => absurd h.symm h_differ,
      fun _ _ => h_medium, fun _ _ _ => ?_⟩
    exact ((if_neg h_fine).trans (if_neg h_match)).symm
  | failed h_fails h_does h_size =>
    exact ⟨fun h => absurd h h_write, fun h => absurd h h_differ, fun _ => h_fails,
      fun _ h => absurd rfl h, fun _ _ _ => (if_pos h_fails).symm⟩

/-- COMPARE AND WRITE of the block at address 2. -/
def Sample.swapOne : Pdu :=
  Sample.command 7 32 #v[0x89, 0, 0, 0, 0, 0, 0, 0, 0, 2, 0, 0, 0, 1, 0, 0]
    (Sample.block 1 ++ Sample.block 2)

/-- On an empty device it is answered with MISCOMPARE. What it expects is not
there, and nothing is written. -/
theorem compareTruth_empty :
    ∃ c', serve (Sample.target 8) 0 (Sample.conn 8 []) Sample.swapOne = .ok c' ∧
      (Sample.conn 8 []).scsi.Sends c'.scsi
        [statusPdu (Sample.target 8) Sample.swapOne errorMiscompare none] ∧
      Ram.contents c'.scsi.disk = Ram.contents (Sample.conn 8 []).scsi.disk := by
  obtain ⟨sense, c', h_serve, h_sent, -, -, -, h_kept, h_exact⟩ :=
    compareTruth (T := Sample.target 8) (ramBackend_swaps 16 _ _ 8) 0 (c := Sample.conn 8 [])
      (q := Sample.swapOne) (by decide) (by decide +kernel) (by decide +kernel)
      (.inr (.inr (.inr (by decide +kernel))))
  -- the backend in memory has nothing to fail with, and the block is no block of ones
  have h_fine : ¬ CompareFails (Sample.target 8) (Sample.conn 8 []).scsi Sample.swapOne := by
    decide +kernel
  have h_not : ¬ Sample.swapOne.Matches (Sample.target 8)
      (Ram.contents (Sample.conn 8 []).scsi.disk) := by decide +kernel
  have h_sense := h_exact (by decide +kernel) (by decide) (by decide +kernel)
  rw [if_neg h_fine, if_neg h_not] at h_sense
  subst h_sense
  exact ⟨c', h_serve, h_sent, h_kept (by simp [errorMiscompare, fixedSense])
    (by simp [errorMiscompare, errorWriteError, fixedSense])⟩

end IscsiTarget
