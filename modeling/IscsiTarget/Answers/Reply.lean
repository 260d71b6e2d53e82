import IscsiTarget.Answers.Sent
import IscsiTarget.Commands.Bounds

/-!
# What `scsi::send` answers

Apart from WRITE and WRITE SAME there are three kinds of answers: a SCSI Response and nothing
else (`IsStatus`), data that fits into a buffer (`IsData`), and a place on the medium to stream
from (`IsStream`). `send_kind` says which commands get which, and that `send` itself sends no
PDU. The data is empty for an INQUIRY with an allocation length of zero, and for no other
command.
-/

namespace IscsiTarget

variable {β : Type}

/-! ### The three kinds -/

namespace ScsiResponse

variable (r : ScsiResponse)

/-- A SCSI Response and nothing else. -/
structure IsStatus : Prop where
  type : r.type = .emptySense ∨ r.type = .asIs ∧ r.senseData ≠ []
  inlineData : r.inlineData = none
  location : r.location.nSectors = 0

/-- The data `d`, and nothing else. -/
structure IsData (d : Bytes) : Prop where
  type : r.type = .asIs
  senseData : r.senseData = []
  inlineData : r.inlineData = some d

/-- Data to stream, and nothing else: the answer names a place on the medium,
and the data is read only while it is sent. -/
structure IsStream : Prop where
  type : r.type = .asIs
  senseData : r.senseData = []
  inlineData : r.inlineData = none
  location : r.location.nSectors > 0

variable {r}

theorem isStatus_empty : ({ type := .emptySense } : ScsiResponse).IsStatus :=
  ⟨.inl rfl, rfl, rfl⟩

theorem isStatus_sense {sense : Bytes} (h : sense ≠ []) :
    ({ senseData := sense } : ScsiResponse).IsStatus :=
  ⟨.inr ⟨rfl, h⟩, rfl, rfl⟩

theorem isData_some (d : Bytes) : ({ inlineData := some d } : ScsiResponse).IsData d :=
  ⟨rfl, rfl, rfl⟩

end ScsiResponse

theorem fixedSense_ne_nil (key asc ascq : UInt8) : fixedSense key asc ascq ≠ [] := by
  simp [fixedSense]

namespace Scsi

variable (T : Target β) (s : Scsi β)

/-! ### Which commands get which -/

/-- The INQUIRY is for data the target has: the standard data when the EVPD bit
is clear and there is no page code, and else one of six pages of vital product
data. -/
def KnownPage (cdb : Cdb) : Prop :=
  if getElem cdb 1 Cdb.lt1 &&& 1 = 0 then getElem cdb 2 Cdb.lt2 = 0
  else getElem cdb 2 Cdb.lt2 = 0x00 ∨ getElem cdb 2 Cdb.lt2 = 0x80 ∨
    getElem cdb 2 Cdb.lt2 = 0x83 ∨ getElem cdb 2 Cdb.lt2 = 0xb0 ∨
    getElem cdb 2 Cdb.lt2 = 0xb1 ∨ getElem cdb 2 Cdb.lt2 = 0xb2

/-- The service action of `get_lba_status` is one that returns data. READ
CAPACITY(16) does when it is given some room, and GET LBA STATUS when its
address is on the device. -/
def KnownAction (cdb : Cdb) : Prop :=
  getElem cdb 1 Cdb.lt1 &&& 31 = 0x10 ∧
      getUint32 (getElem cdb 10 Cdb.lt10) (getElem cdb 11 Cdb.lt11)
        (getElem cdb 12 Cdb.lt12) (getElem cdb 13 Cdb.lt13) ≠ 0 ∨
    getElem cdb 1 Cdb.lt1 &&& 31 = 0x12 ∧ s.validateLba T
      (getUint64 (getElem cdb 2 Cdb.lt2) (getElem cdb 3 Cdb.lt3) (getElem cdb 4 Cdb.lt4)
        (getElem cdb 5 Cdb.lt5) (getElem cdb 6 Cdb.lt6) (getElem cdb 7 Cdb.lt7)
        (getElem cdb 8 Cdb.lt8) (getElem cdb 9 Cdb.lt9)) = none

/-- REPORT SUPPORTED OPERATION CODES is for all of them, or for one that is in
the table. -/
def KnownReport (cdb : Cdb) : Prop :=
  getElem cdb 1 Cdb.lt1 &&& 31 = 0x0c ∧ (getElem cdb 2 Cdb.lt2 &&& 7 = 0 ∨
    getElem cdb 2 Cdb.lt2 &&& 7 = 1 ∧ (scsiA3Data T).lookup (getElem cdb 3 Cdb.lt3) ≠ none)

/-- The command returns data, and the target keeps it in a buffer. What it
returns from the medium is streamed instead, and a MODE SENSE returns nothing
while another session has the reservation. -/
def ReturnsData (cdb : Cdb) : Prop :=
  cdb.opcode = .modeSense6 ∧ s.lockingStatus T ≠ .lockedOther ∨
    cdb.opcode = .inquiry ∧ KnownPage cdb ∨
    cdb.opcode = .readCapacity10 ∨
    cdb.opcode = .getLbaStatus ∧ s.KnownAction T cdb ∨
    cdb.opcode = .reportLuns ∨
    cdb.opcode = .repSupOper ∧ KnownReport T cdb

/-- The INQUIRY leaves no room for its data. -/
def AllocatesNothing (cdb : Cdb) : Prop :=
  cdb.opcode = .inquiry ∧ inquiryAllocationLength cdb = 0

/-- The command is a READ of blocks that are there. -/
def Streams (cdb : Cdb) : Prop :=
  (cdb.opcode = .read6 ∨ cdb.opcode = .read10 ∨ cdb.opcode = .read12 ∨ cdb.opcode = .read16) ∧
    s.validateRequest T cdb.range.1 cdb.range.2 (some cdb) = none ∧ cdb.range.2 ≠ 0

instance (cdb : Cdb) : Decidable (KnownPage cdb) := by unfold KnownPage; infer_instance

instance (cdb : Cdb) : Decidable (s.KnownAction T cdb) := by unfold KnownAction; infer_instance

instance (cdb : Cdb) : Decidable (KnownReport T cdb) := by unfold KnownReport; infer_instance

instance (cdb : Cdb) : Decidable (s.ReturnsData T cdb) := by unfold ReturnsData; infer_instance

instance (cdb : Cdb) : Decidable (AllocatesNothing cdb) := by
  unfold AllocatesNothing
  infer_instance

instance (cdb : Cdb) : Decidable (s.Streams T cdb) := by unfold Streams; infer_instance

/-- What `send` answers to a command that is neither a WRITE nor a WRITE SAME: a
status, data in a buffer or a place to stream from. Which of them it is depends
on the command and the state before it, and not on what the backend does. -/
inductive Kind (cdb : Cdb) (r : ScsiResponse) : Prop
  | status (h_data : ¬ s.ReturnsData T cdb) (h_stream : ¬ s.Streams T cdb) (h : r.IsStatus)
  | data (h_data : s.ReturnsData T cdb) (h_stream : ¬ s.Streams T cdb) {d : Bytes}
    (h_empty : d = [] ↔ AllocatesNothing cdb) (h : r.IsData d)
  | stream (h_data : ¬ s.ReturnsData T cdb) (h_stream : s.Streams T cdb) (h : r.IsStream)
    (h_loc : r.location = { lba := cdb.range.1, nSectors := cdb.range.2 })

variable {T s} {cdb : Cdb}

/-! ### Data -/

theorem poke_ne_nil (off : ℕ) {bytes : Bytes} (h : bytes ≠ []) (buf : Bytes) :
    poke off bytes buf ≠ [] := by
  unfold poke
  simp [h]

theorem be32_ne_nil (v : ℕ) : be32 v ≠ [] := by simp [be32]

/-- The target has data for the pages it knows, and it is not empty. The pages
are gone through one by one, as the code does. -/
theorem inquiryData_spec (lun : UInt64) (cdb : Cdb) :
    (KnownPage cdb ∧ ∃ d, inquiryData T lun cdb = some d ∧ d ≠ []) ∨
      (¬ KnownPage cdb ∧ inquiryData T lun cdb = none) := by
  unfold KnownPage inquiryData
  by_cases h_evpd : cdb[1] &&& 1 = 0
  · simp only [if_pos h_evpd]
    by_cases h_page : cdb[2] = 0
    · refine .inl ⟨h_page, _, if_neg (not_not.mpr h_page), ?_⟩
      exact poke_ne_nil _ (by simp) _
    · exact .inr ⟨h_page, if_pos h_page⟩
  · simp only [if_neg h_evpd]
    unfold inquiryPage
    -- one page after the other
    by_cases h_00 : cdb[2] = 0x00
    · exact .inl ⟨.inl h_00, _, if_pos h_00, poke_ne_nil _ (by simp) _⟩
    rw [if_neg h_00]
    by_cases h_80 : cdb[2] = 0x80
    · refine .inl ⟨.inr (.inl h_80), _, if_pos h_80, ?_⟩
      intro h
      have h_len := congrArg List.length h
      simp [poke, zeros] at h_len
    rw [if_neg h_80]
    by_cases h_83 : cdb[2] = 0x83
    · refine .inl ⟨.inr (.inr (.inl h_83)), _, if_pos h_83, ?_⟩
      intro h
      have h_len := congrArg List.length h
      simp [poke, zeros] at h_len
    rw [if_neg h_83]
    by_cases h_b0 : cdb[2] = 0xb0
    · exact .inl ⟨.inr (.inr (.inr (.inl h_b0))), _, if_pos h_b0, poke_ne_nil _ (be32_ne_nil _) _⟩
    rw [if_neg h_b0]
    by_cases h_b1 : cdb[2] = 0xb1
    · exact .inl ⟨.inr (.inr (.inr (.inr (.inl h_b1)))), _, if_pos h_b1, poke_ne_nil _ (by simp) _⟩
    rw [if_neg h_b1]
    by_cases h_b2 : cdb[2] = 0xb2
    · exact .inl ⟨.inr (.inr (.inr (.inr (.inr h_b2)))), _, if_pos h_b2, poke_ne_nil _ (by simp) _⟩
    rw [if_neg h_b2]
    exact .inr ⟨by simp [h_00, h_80, h_83, h_b0, h_b1, h_b2], rfl⟩

theorem supportedOperationCodes_spec (cdb : Cdb) :
    (KnownReport T cdb ∧ ∃ d, supportedOperationCodes T cdb = some d ∧ d ≠ []) ∨
      (¬ KnownReport T cdb ∧ supportedOperationCodes T cdb = none) := by
  unfold KnownReport supportedOperationCodes
  dsimp only
  -- the service action first, then the reporting options, then the opcode asked about
  by_cases h_action : cdb[1] &&& 31 = 0x0c
  swap
  · exact .inr ⟨fun h => h_action h.1, if_neg h_action⟩
  rw [if_pos h_action]
  by_cases h_all : cdb[2] &&& 7 = 0
  · exact .inl ⟨⟨h_action, .inl h_all⟩, _, if_pos h_all, by simp [be32]⟩
  rw [if_neg h_all]
  by_cases h_one : cdb[2] &&& 7 = 1
  swap
  · refine .inr ⟨?_, if_neg h_one⟩
    rintro ⟨-, h | h⟩
    · exact h_all h
    · exact h_one h.1
  rw [if_pos h_one]
  cases h_lookup : (scsiA3Data T).lookup cdb[3] with
  | some usage =>
    exact .inl ⟨⟨h_action, .inr ⟨h_one, by simp⟩⟩, _, rfl, by simp⟩
  | none =>
    refine .inr ⟨?_, rfl⟩
    rintro ⟨-, h | h⟩
    · exact h_all h
    · exact h.2 rfl

theorem readCapacity16_data_ne_nil {n : UInt32} (h : n ≠ 0) {d : Bytes} (hd : d ≠ []) :
    d.take n.toNat ≠ [] := by
  have h_pos : n.toNat ≠ 0 := fun h_zero => h (UInt32.toNat_inj.mp h_zero)
  rw [ne_eq, List.take_eq_nil_iff]
  exact not_or.mpr ⟨h_pos, hd⟩

/-! ### One command after the other -/

variable {lun : UInt64}

/-- A command that never returns data and never streams. -/
theorem kind_of_status {r : ScsiResponse} (h_data : ¬ s.ReturnsData T cdb)
    (hop : cdb.opcode ≠ .read6 ∧ cdb.opcode ≠ .read10 ∧ cdb.opcode ≠ .read12 ∧
      cdb.opcode ≠ .read16) (h : r.IsStatus) : s.Kind T cdb r :=
  .status h_data (fun h => by rcases h.1 with h | h | h | h <;> simp_all) h

theorem kind_inquiry (hop : cdb.opcode = .inquiry) : s.Kind T cdb (inquiry T lun cdb) := by
  have h_stream : ¬ s.Streams T cdb := fun h => by simp [Streams, hop] at h
  have h_data : s.ReturnsData T cdb ↔ KnownPage cdb := by simp [ReturnsData, hop]
  unfold inquiry
  rcases inquiryData_spec (T := T) lun cdb with ⟨h_page, d, hd, h_ne⟩ | ⟨h_page, hd⟩
  · rw [hd]
    refine .data (h_data.mpr h_page) h_stream ?_ (ScsiResponse.isData_some _)
    rw [List.take_eq_nil_iff, or_iff_left h_ne]
    exact (and_iff_right hop).symm
  · rw [hd]
    exact .status (fun h => h_page (h_data.mp h)) h_stream (ScsiResponse.isStatus_sense (by simp))

theorem kind_getLbaStatus (hop : cdb.opcode = .getLbaStatus) :
    s.Kind T cdb (s.getLbaStatus T cdb) := by
  have h_stream : ¬ s.Streams T cdb := fun h => by simp [Streams, hop] at h
  have h_alloc : ¬ AllocatesNothing cdb := fun h => by simp [AllocatesNothing, hop] at h
  have h_data : s.ReturnsData T cdb ↔ s.KnownAction T cdb := by simp [ReturnsData, hop]
  unfold getLbaStatus
  dsimp only
  -- READ CAPACITY(16)
  by_cases h_10 : cdb[1] &&& 31 = 0x10
  · rw [if_pos h_10]
    unfold readCapacity16
    by_cases h_zero : getUint32 cdb[10] cdb[11] cdb[12] cdb[13] = 0
    · rw [if_pos h_zero]
      refine .status (fun h => ?_) h_stream ScsiResponse.isStatus_empty
      rcases h_data.mp h with h | h
      · exact h.2 h_zero
      · exact absurd (h_10.symm.trans h.1) (by decide)
    · rw [if_neg h_zero]
      refine .data (h_data.mpr (.inl ⟨h_10, h_zero⟩)) h_stream ?_ (ScsiResponse.isData_some _)
      exact iff_of_false
        (readCapacity16_data_ne_nil h_zero (poke_ne_nil _ (by simp) _)) h_alloc
  rw [if_neg h_10]
  -- GET LBA STATUS, whose address is checked
  by_cases h_12 : cdb[1] &&& 31 = 0x12
  · rw [if_pos h_12]
    cases h_lba : s.validateLba T
        (getUint64 cdb[2] cdb[3] cdb[4] cdb[5] cdb[6] cdb[7] cdb[8] cdb[9]) with
    | some sense =>
      refine .status (fun h => ?_) h_stream (ScsiResponse.isStatus_sense ?_)
      · rcases h_data.mp h with h | h
        · exact h_10 h.1
        · exact absurd (h_lba.symm.trans h.2) (by simp)
      · unfold validateLba at h_lba
        split at h_lba
        · obtain rfl := Option.some.inj h_lba
          exact fixedSense_ne_nil _ _ _
        · exact nomatch h_lba
    | none =>
      refine .data (h_data.mpr (.inr ⟨h_12, h_lba⟩)) h_stream ?_ (ScsiResponse.isData_some _)
      refine iff_of_false ?_ h_alloc
      intro h
      have h_len := congrArg List.length h
      simp [poke, zeros] at h_len
  rw [if_neg h_12]
  refine .status (fun h => ?_) h_stream (ScsiResponse.isStatus_sense (fixedSense_ne_nil _ _ _))
  rcases h_data.mp h with h | h
  · exact h_10 h.1
  · exact h_12 h.1

theorem kind_repSupOper (hop : cdb.opcode = .repSupOper) :
    s.Kind T cdb (reportSupportedOperationCodes T cdb) := by
  have h_stream : ¬ s.Streams T cdb := fun h => by simp [Streams, hop] at h
  have h_alloc : ¬ AllocatesNothing cdb := fun h => by simp [AllocatesNothing, hop] at h
  have h_data : s.ReturnsData T cdb ↔ KnownReport T cdb := by simp [ReturnsData, hop]
  unfold reportSupportedOperationCodes
  -- a report, or the refusal of one
  rcases supportedOperationCodes_spec (T := T) cdb with ⟨h_known, d, hd, h_ne⟩ | ⟨h_known, hd⟩
  · rw [hd]
    exact .data (h_data.mpr h_known) h_stream (iff_of_false h_ne h_alloc)
      (ScsiResponse.isData_some d)
  · rw [hd]
    exact .status (fun h => h_known (h_data.mp h)) h_stream
      (ScsiResponse.isStatus_sense (fixedSense_ne_nil _ _ _))

theorem kind_modeSense6 (hop : cdb.opcode = .modeSense6) : s.Kind T cdb (s.modeSense6 T) := by
  have h_stream : ¬ s.Streams T cdb := fun h => by simp [Streams, hop] at h
  have h_alloc : ¬ AllocatesNothing cdb := fun h => by simp [AllocatesNothing, hop] at h
  have h_data : s.ReturnsData T cdb ↔ s.lockingStatus T ≠ .lockedOther := by
    simp [ReturnsData, hop]
  unfold modeSense6
  -- a reservation is looked at before anything else
  by_cases hl : s.lockingStatus T = .lockedOther
  · rw [if_pos hl]
    exact .status (fun h => h_data.mp h hl) h_stream
      (ScsiResponse.isStatus_sense (fixedSense_ne_nil _ _ _))
  · rw [if_neg hl]
    exact .data (h_data.mpr hl) h_stream (iff_of_false (poke_ne_nil _ (by simp) _) h_alloc)
      (ScsiResponse.isData_some _)

theorem kind_read (hop : cdb.opcode = .read6 ∨ cdb.opcode = .read10 ∨ cdb.opcode = .read12 ∨
    cdb.opcode = .read16) : s.Kind T cdb (s.read_ T cdb) := by
  have h_data : ¬ s.ReturnsData T cdb := by
    rcases hop with h | h | h | h <;> simp [ReturnsData, h]
  unfold read_
  dsimp only
  cases h_check : s.validateRequest T cdb.range.1 cdb.range.2 (some cdb) with
  | some sense =>
    -- the range is refused
    refine .status h_data (fun h => absurd (h_check.symm.trans h.2.1) (by simp))
      ⟨.inr ⟨rfl, ?_⟩, rfl, rfl⟩
    rcases validateRequest_sense T s h_check with rfl | rfl
    · exact fixedSense_ne_nil _ _ _
    · exact fixedSense_ne_nil _ _ _
  | none =>
    dsimp only
    by_cases h_zero : cdb.range.2 = 0
    · rw [if_pos h_zero]
      -- nothing is to be read, which is answered with GOOD
      exact .status h_data (fun h => h.2.2 h_zero) ⟨.inl rfl, rfl, rfl⟩
    · rw [if_neg h_zero]
      -- the data is streamed
      refine .stream h_data ⟨hop, h_check, h_zero⟩ ⟨rfl, rfl, rfl, ?_⟩ rfl
      exact UInt32.pos_iff_ne_zero.mpr h_zero

/-- The commands whose answer is a SCSI Response, whatever happens. -/
theorem isStatus_prefetch : (s.prefetch T cdb).IsStatus := by
  unfold prefetch
  dsimp only
  cases h_check : s.validateRequest T cdb.range.1 cdb.range.2 none with
  | some sense =>
    refine ScsiResponse.isStatus_sense ?_
    rcases validateRequest_sense T s h_check with rfl | rfl
    · exact fixedSense_ne_nil _ _ _
    · exact fixedSense_ne_nil _ _ _
  | none => exact ScsiResponse.isStatus_empty

theorem isStatus_reserve : (s.reserve T).1.IsStatus := by
  unfold reserve
  split
  · split
    · exact ScsiResponse.isStatus_empty
    · exact ScsiResponse.isStatus_sense (fixedSense_ne_nil _ _ _)
  · exact ScsiResponse.isStatus_sense (fixedSense_ne_nil _ _ _)

theorem isStatus_release : (s.release T).1.IsStatus := by
  unfold release
  split
  · exact ScsiResponse.isStatus_empty
  · exact ScsiResponse.isStatus_sense (fixedSense_ne_nil _ _ _)

/-- The backend never reports a failure to `compare_and_write` that it has no
answer for. Each of the results `cmpwrite` can have is given sense data of its
own. -/
theorem isStatus_compareAndWrite {data : Bytes} {r : ScsiResponse} {s' : Scsi β}
    (h : s.compareAndWrite T cdb data = .ok (r, s')) : r.IsStatus ∧ s.Sends s' [] := by
  have h_sends := sends_cmpwrite (T := T) (s := s)
    (getUint64 cdb[2] cdb[3] cdb[4] cdb[5] cdb[6] cdb[7] cdb[8] cdb[9]) cdb[13].toUInt32
    (data.drop (T.nBytes cdb[13].toUInt32)) data
  unfold compareAndWrite at h
  dsimp only at h
  split at h
  · next sense h_check =>
    obtain ⟨rfl, rfl⟩ := Prod.mk.inj (Except.ok.inj h)
    refine ⟨⟨.inr ⟨rfl, ?_⟩, rfl, rfl⟩, .refl s⟩
    rcases validateRequest_sense T s h_check with rfl | rfl
    · exact fixedSense_ne_nil _ _ _
    · exact fixedSense_ne_nil _ _ _
  split at h
  · obtain ⟨rfl, rfl⟩ := Prod.mk.inj (Except.ok.inj h)
    exact ⟨⟨.inr ⟨rfl, fixedSense_ne_nil _ _ _⟩, rfl, rfl⟩, .refl s⟩
  split at h
  · exact nomatch h
  split at h
  · next h_eq =>
    rw [h_eq] at h_sends
    obtain ⟨rfl, rfl⟩ := Prod.mk.inj (Except.ok.inj h)
    exact ⟨⟨.inl rfl, rfl, rfl⟩, h_sends⟩
  · next h_eq =>
    rw [h_eq] at h_sends
    obtain ⟨rfl, rfl⟩ := Prod.mk.inj (Except.ok.inj h)
    exact ⟨⟨.inr ⟨rfl, fixedSense_ne_nil _ _ _⟩, rfl, rfl⟩, h_sends⟩
  · next h_eq =>
    rw [h_eq] at h_sends
    obtain ⟨rfl, rfl⟩ := Prod.mk.inj (Except.ok.inj h)
    exact ⟨⟨.inr ⟨rfl, fixedSense_ne_nil _ _ _⟩, rfl, rfl⟩, h_sends⟩
  · next h_eq =>
    rw [h_eq] at h_sends
    obtain ⟨rfl, rfl⟩ := Prod.mk.inj (Except.ok.inj h)
    exact ⟨⟨.inr ⟨rfl, fixedSense_ne_nil _ _ _⟩, rfl, rfl⟩, h_sends⟩
  · next h_eq =>
    -- `cmpwrite` never ends this way
    exfalso
    unfold cmpwrite at h_eq
    split at h_eq
    · dsimp only at h_eq
      split at h_eq <;> exact absurd (congrArg Prod.fst h_eq) (by simp)
    · exact absurd (congrArg Prod.fst h_eq) (by simp)

theorem isStatus_unmap {data : Bytes} {r : ScsiResponse} {s' : Scsi β}
    (h : s.unmap T data = .ok (r, s')) : r.IsStatus ∧ s.Sends s' [] := by
  unfold unmap at h
  cases h_loop : unmapLoop T data.length { scsi := s } (data.drop 8) with
  | error f =>
    rw [h_loop] at h
    exact nomatch h
  | ok u =>
    rw [h_loop] at h
    have h_sends := sends_unmapLoop _ _ _ h_loop
    obtain ⟨h_r, rfl⟩ := Prod.mk.inj (Except.ok.inj h)
    -- by what the loop has left: no failure, a sense of its own, or a general one
    refine ⟨?_, h_sends⟩
    rw [← h_r]
    split
    · exact ⟨.inl rfl, rfl, rfl⟩
    split
    · next h_sense => exact ScsiResponse.isStatus_sense h_sense
    split
    · exact ScsiResponse.isStatus_sense (fixedSense_ne_nil _ _ _)
    · exact ScsiResponse.isStatus_sense (fixedSense_ne_nil _ _ _)

/-- **The three kinds of answers.** `send` itself sends no PDU. The opcodes are
gone through one by one; for most of them the answer is a status whatever the
state is. -/
theorem send_kind {fuel : ℕ} {data : Bytes} {r : ScsiResponse} {s' : Scsi β}
    (h_write : cdb.opcode.isWrite = false) (h_same : cdb.opcode.isWriteSame = false)
    (h : s.send T fuel lun cdb data = .ok (r, s')) : s.Kind T cdb r ∧ s.Sends s' [] := by
  unfold send at h
  -- the commands that leave the state alone, with their answer
  have h_same_state : ∀ {a : ScsiResponse}, s.Kind T cdb a →
      (.ok (a, s) : Except Fault (ScsiResponse × Scsi β)) = .ok (r, s') →
      s.Kind T cdb r ∧ s.Sends s' [] := by
    intro a h_kind h_eq
    obtain ⟨rfl, rfl⟩ := Prod.mk.inj (Except.ok.inj h_eq)
    exact ⟨h_kind, .refl s⟩
  cases hop : cdb.opcode with
  | testUnitReady =>
    rw [hop] at h
    exact h_same_state (kind_of_status (by simp [ReturnsData, hop]) (by simp [hop])
      ScsiResponse.isStatus_empty) h
  | modeSense6 =>
    rw [hop] at h
    exact h_same_state (kind_modeSense6 hop) h
  | inquiry =>
    rw [hop] at h
    exact h_same_state (kind_inquiry hop) h
  | readCapacity10 =>
    rw [hop] at h
    refine h_same_state (.data (by simp [ReturnsData, hop]) (by simp [Streams, hop]) ?_
      (ScsiResponse.isData_some _)) h
    simp [be32, AllocatesNothing, hop]
  | getLbaStatus =>
    rw [hop] at h
    exact h_same_state (kind_getLbaStatus hop) h
  | write6 => simp [hop, ScsiOpcode.isWrite] at h_write
  | write10 => simp [hop, ScsiOpcode.isWrite] at h_write
  | writeVerify10 => simp [hop, ScsiOpcode.isWrite] at h_write
  | write12 => simp [hop, ScsiOpcode.isWrite] at h_write
  | write16 => simp [hop, ScsiOpcode.isWrite] at h_write
  | read6 =>
    rw [hop] at h
    exact h_same_state (kind_read (by simp [hop])) h
  | read10 =>
    rw [hop] at h
    exact h_same_state (kind_read (by simp [hop])) h
  | read12 =>
    rw [hop] at h
    exact h_same_state (kind_read (by simp [hop])) h
  | read16 =>
    rw [hop] at h
    exact h_same_state (kind_read (by simp [hop])) h
  | syncCache10 =>
    rw [hop] at h
    obtain ⟨rfl, rfl⟩ := Prod.mk.inj (Except.ok.inj h)
    exact ⟨kind_of_status (by simp [ReturnsData, hop]) (by simp [hop])
      ScsiResponse.isStatus_empty, sends_sync s⟩
  | reportLuns =>
    rw [hop] at h
    refine h_same_state (.data (by simp [ReturnsData, hop]) (by simp [Streams, hop]) ?_
      (ScsiResponse.isData_some _)) h
    refine iff_of_false ?_ (by simp [AllocatesNothing, hop])
    exact fun h => absurd (congrArg List.length h) (by decide)
  | repSupOper =>
    rw [hop] at h
    exact h_same_state (kind_repSupOper hop) h
  | compareAndWrite =>
    rw [hop] at h
    obtain ⟨h_status, h_sends⟩ := isStatus_compareAndWrite h
    exact ⟨kind_of_status (by simp [ReturnsData, hop]) (by simp [hop]) h_status, h_sends⟩
  | prefetch10 =>
    rw [hop] at h
    exact h_same_state (kind_of_status (by simp [ReturnsData, hop]) (by simp [hop])
      isStatus_prefetch) h
  | prefetch16 =>
    rw [hop] at h
    exact h_same_state (kind_of_status (by simp [ReturnsData, hop]) (by simp [hop])
      isStatus_prefetch) h
  | reserve6 =>
    rw [hop] at h
    obtain ⟨rfl, rfl⟩ := Prod.mk.inj (Except.ok.inj h)
    exact ⟨kind_of_status (by simp [ReturnsData, hop]) (by simp [hop]) isStatus_reserve,
      sends_reserve s⟩
  | release6 =>
    rw [hop] at h
    obtain ⟨rfl, rfl⟩ := Prod.mk.inj (Except.ok.inj h)
    exact ⟨kind_of_status (by simp [ReturnsData, hop]) (by simp [hop]) isStatus_release,
      sends_release s⟩
  | unmap =>
    rw [hop] at h
    obtain ⟨h_status, h_sends⟩ := isStatus_unmap h
    exact ⟨kind_of_status (by simp [ReturnsData, hop]) (by simp [hop]) h_status, h_sends⟩
  | writeSame10 => simp [hop, ScsiOpcode.isWriteSame] at h_same
  | writeSame16 => simp [hop, ScsiOpcode.isWriteSame] at h_same
  | requestSense | seek | other =>
    rw [hop] at h
    exact h_same_state (kind_of_status (by simp [ReturnsData, hop]) (by simp [hop])
      (ScsiResponse.isStatus_sense (fixedSense_ne_nil _ _ _))) h

/-- When `send` gives an answer at all. -/
theorem send_isOk_iff {fuel : ℕ} {data : Bytes} (h_same : cdb.opcode.isWriteSame = false) :
    (∃ r, s.send T fuel lun cdb data = .ok r) ↔
      (cdb.opcode = .compareAndWrite → s.CompareEnds T cdb data) ∧
        (cdb.opcode = .unmap → s.UnmapFits T (data.drop 8)) := by
  unfold send
  cases hop : cdb.opcode <;>
    simp_all [ScsiOpcode.isWriteSame, ← compareAndWrite_isOk_iff, ← unmap_isOk_iff]

end Scsi

end IscsiTarget
