import IscsiTarget.DataIn.Streamed
import IscsiTarget.Receive.Login

/-!
# Whether a READ ends

The streaming loop moves on by at most the segment length of the session. A login can set that to
zero, and then the loop sends empty Data-Ins without end, as long as nothing fails.
`streaming_iff` puts the logins and the READ together.
-/

namespace IscsiTarget

variable {β : Type} {T : Target β} {c : Conn β} {q : Pdu}

theorem newSession_maxSegLen_ne_zero (T : Target β) : (newSession T).maxSegLen ≠ 0 := by
  change UInt32.ofNat (if T.build.arduino then 8192 else 256 * 1024 * 1024) ≠ 0
  split <;> decide

/-- Where reads do not fail, they do not fail when they are repeated. -/
theorem Target.Reliable.readsForever {good : β → Prop} (hT : T.Reliable good) (lba : UInt64)
    {d : β} (h : good d) : ReadsForever T lba d := by
  have h_good : ∀ k, good (rereads T lba k d) := by
    intro k
    induction k with
    | zero => exact h
    | succ k ih =>
      rw [rereads, Function.iterate_succ_apply']
      exact (hT.read _ lba 1 ih).2
  intro k
  exact Option.isSome_iff_ne_none.mp (hT.read _ lba 1 (h_good k)).1

/-- **A READ ends** when nothing fails, unless it has something to send and no
room to send it. Then it reads the same block for ever. -/
theorem serve_streams_ends_iff {good : β → Prop} (hT : T.Reliable good)
    (h_good : good c.scsi.disk) (hop : q.bhs.getOpcode = .scsiCmd)
    (hs : c.scsi.Streams T q.bhs.getCdb) (h_free : c.scsi.lockingStatus T ≠ .lockedOther) :
    (∃ fuel c', serve T fuel c q = .ok c') ↔ c.ses.maxSegLen ≠ 0 ∨
      T.nBytes q.bhs.getCdb.range.2 % 2 ^ 32 = 0 ∨ q.bhs.getExpDatLen = 0 := by
  rw [exists_serve_streams_iff hT.send hop hs]
  constructor
  · intro h
    by_contra h_not
    push Not at h_not
    exact h (.noRoom hs h_not.2.1 h_not.2.2 h_not.1 h_free (hT.readsForever _ h_good))
  · rintro h h_never
    cases h_never with
    | shortCompare h_op => rcases hs.1 with h' | h' | h' | h' <;> simp [h'] at h_op
    | shortList h_op => rcases hs.1 with h' | h' | h' | h' <;> simp [h'] at h_op
    -- of what never ends only this is a READ
    | noRoom _ h_length h_expected h_seg =>
      rcases h with h | h | h
      · exact h h_seg
      · exact h_length h
      · exact h_expected h

/-- **Streaming ends on every session** whose logins have not set the segment
length to zero, and on the others for the READs that have nothing to send. -/
theorem streaming_iff {good : β → Prop} {datas : List Bytes} {ses : Session}
    (h_login : Machine.run loginSetData (newSession T) datas = .ok ses)
    (h_seg : c.ses.maxSegLen = ses.maxSegLen) (hT : T.Reliable good) (h_good : good c.scsi.disk)
    (hop : q.bhs.getOpcode = .scsiCmd) (hs : c.scsi.Streams T q.bhs.getCdb)
    (h_free : c.scsi.lockingStatus T ≠ .lockedOther) :
    (∃ fuel c', serve T fuel c q = .ok c') ↔
      (¬ ∃ data ∈ datas, ZeroLogin data) ∨
        T.nBytes q.bhs.getCdb.range.2 % 2 ^ 32 = 0 ∨ q.bhs.getExpDatLen = 0 := by
  rw [serve_streams_ends_iff hT h_good hop hs h_free, h_seg, ne_eq,
    maxSegLen_logins_eq_zero_iff h_login, or_iff_right (newSession_maxSegLen_ne_zero T)]

/-- A login with a segment length of 512, and a READ(10) of two blocks. Two
blocks of 16 bytes fit into the first segment. -/
theorem streaming_read :
    ∃ c : Conn Ram, c.scsi = (Sample.conn 8 []).scsi ∧
      Machine.run loginSetData (newSession (Sample.target 8))
        [ascii "MaxRecvDataSegmentLength=512"] = .ok c.ses ∧
      ∃ fuel c', serve (Sample.target 8) fuel c
        (Sample.command 5 24 (Sample.cdb10 0x28 0 2 2) []) = .ok c' := by
  obtain ⟨ses, h_login, -⟩ := Machine.exists_ok_of_any (P := fun _ => True)
    (r := Machine.run loginSetData (newSession (Sample.target 8))
      [ascii "MaxRecvDataSegmentLength=512"]) (by decide +kernel)
  obtain ⟨c, h_scsi, rfl⟩ : ∃ c : Conn Ram, c.scsi = (Sample.conn 8 []).scsi ∧ c.ses = ses :=
    ⟨{ scsi := _, ses := ses }, rfl, rfl⟩
  refine ⟨c, h_scsi, h_login, (streaming_iff h_login rfl (Sample.reliable 8) (by rw [h_scsi]; rfl)
    (by decide) (by rw [h_scsi]; decide +kernel) (by rw [h_scsi]; decide)).mpr (.inl ?_)⟩
  rintro ⟨data, h_data, kv, h_kv, value, rest, h_split, h_zero⟩
  obtain rfl := List.mem_singleton.mp h_data
  have h_all : dataToTextArray (ascii "MaxRecvDataSegmentLength=512") =
    [ascii "MaxRecvDataSegmentLength=512"] := by decide
  rw [h_all] at h_kv
  obtain rfl := List.mem_singleton.mp h_kv
  have h_parts : split (ascii "MaxRecvDataSegmentLength=512") (ascii "=") =
    [ascii "MaxRecvDataSegmentLength", ascii "512"] := by decide
  obtain ⟨-, h_value⟩ := List.cons.inj (h_parts.symm.trans h_split)
  rw [← (List.cons.inj h_value).1] at h_zero
  have h_number : stoi (ascii "512") = .ok 512 := rfl
  exact absurd (Except.ok.inj (h_number.symm.trans h_zero)) (by decide)

/-- A login with MaxRecvDataSegmentLength=0, and a READ(10) of one block that
never ends: every turn sends a Data-In without data. -/
theorem streaming_fails :
    ∃ c : Conn Ram, c.scsi = (Sample.conn 8 []).scsi ∧
      Machine.run loginSetData (newSession (Sample.target 8))
        [ascii "MaxRecvDataSegmentLength=0"] = .ok c.ses ∧
      ¬ ∃ fuel c', serve (Sample.target 8) fuel c
        (Sample.command 5 16 (Sample.cdb10 0x28 0 2 1) []) = .ok c' := by
  obtain ⟨ses, h_login, h_seg⟩ := Machine.exists_ok_of_any (P := fun ses => ses.maxSegLen = 0)
    (r := Machine.run loginSetData (newSession (Sample.target 8))
      [ascii "MaxRecvDataSegmentLength=0"]) (by decide +kernel)
  obtain ⟨c, h_scsi, rfl⟩ : ∃ c : Conn Ram, c.scsi = (Sample.conn 8 []).scsi ∧ c.ses = ses :=
    ⟨{ scsi := _, ses := ses }, rfl, rfl⟩
  refine ⟨c, h_scsi, h_login, ?_⟩
  rw [serve_streams_ends_iff (Sample.reliable 8) (by rw [h_scsi]; rfl) (by decide)
    (by rw [h_scsi]; decide +kernel) (by rw [h_scsi]; decide)]
  rintro (h | h | h)
  · exact h h_seg
  · exact absurd h (by decide)
  · exact absurd h (by decide)

end IscsiTarget
