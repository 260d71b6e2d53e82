import IscsiTarget.Answers.Step
import IscsiTarget.DataIn.Numbering
import IscsiTarget.Disk.Task

/-!
# The target as a disk

A conversation is a list of tasks, one after another. `converse` plays it on a connection,
up to the first task that is disturbed. `converse_refines` says what the initiator is
talking to: a disk. Every task is carried out to its end, the medium has the effect of the
requests, and the initiator has been given the answers of the disk.

The step is `Task.Asks.run`, with one lemma for each kind of request in front of it.
-/

namespace IscsiTarget

variable {β : Type} {T : Target β} {medium : β → Medium UInt8}

/-- What has succeeded has not failed. -/
theorem Event.Succeeds.not_failed {e : Event} (h : e.Succeeds) : ¬ e.Failed := by
  intro h_failed
  cases e with
  | io call ok =>
    rw [show ok = true from h] at h_failed
    exact absurd h_failed (by simp [Failed])
  | sent p ok => exact h_failed
  | received q => exact h_failed

/-! ### From one idle connection to the next -/

theorem settings_run {fuel : ℕ} {c c' : Conn β} {ps : List Pdu}
    (h : Machine.run (serve T fuel) c ps = .ok c') : c'.ses.settings = c.ses.settings :=
  Machine.run_induction (P := fun _ _ => True) (I := fun s => s.ses.settings = c.ses.settings)
    (fun _ _ _ hI _ hs => (settings_serve hs).trans hI) ps c c' rfl
    (Machine.along_of_forall (fun _ _ => trivial) _ _) h

/-- What a task has come to: the medium is what the request makes of it, the
initiator has been shown the answer, and the connection is as idle as before. -/
structure Task.Done (T : Target β) (medium : β → Medium UInt8) (seg : UInt32) (size : ℕ)
    (q : Pdu) (r : Disk.Request UInt8) (c c' : Conn β) (es : List Event) : Prop where
  effect : medium c'.scsi.disk = r.effect (medium c.scsi.disk)
  shows : Task.Shows T q es (r.answer (medium c.scsi.disk))
  idle : Idle T seg size c'

variable {seg : UInt32} {size fuel : ℕ} {c c' : Conn β} {q : Pdu}

/-- A connection that is idle again. -/
theorem Idle.next (hc : Idle T seg size c) (h_ext : c.Extends c')
    (h_settings : c'.ses.settings = c.ses.settings) (h_size : c'.scsi.size T = c.scsi.size T)
    (h_table : c'.ses.r2tSessions = c.ses.r2tSessions) : Idle T seg size c' where
  maxSegLen := (congrArg Settings.maxSegLen h_settings).trans hc.maxSegLen
  size_eq := h_size.trans hc.size_eq
  unlocked := by
    rw [h_ext.lockingStatus]
    exact hc.unlocked
  table t := by
    rw [Session.getR2tSesion, h_table]
    exact hc.table t

/-! ### WRITE -/

theorem Task.IsStore.delivery {x : Task} {payload : Bytes} (h : x.IsStore T size payload)
    (hc : Idle T seg size c) :
    Delivery T c x.command payload (x.dataOuts (commandTag T c x.command)) where
  write := h.write
  fua := h.fua
  protect := h.protect
  inside := by
    rw [hc.size_eq]
    exact h.inside
  expDatLen := h.expDatLen
  length := h.length
  immediate := h.immediate
  carries := h.carries _
  tiles := h.tiles _
  final := h.final _
  fresh := hc.table _

theorem Task.IsStore.run (hB : T.backend.Stores medium) {x : Task} {payload : Bytes}
    (h : x.IsStore T size payload) (hc : Idle T seg size c) :
    ∃ c' es, Machine.run (serve T fuel) c (x.pdus T c) = .ok c' ∧ c.scsi.Does c'.scsi es ∧
      (Task.Undisturbed T x.command es →
        Task.Done T medium seg size x.command
          (.store (x.command.lba.toNat * T.blockSize) payload) c c' es) := by
  obtain ⟨c', h_run, ⟨es, h_does⟩, h_stored⟩ :=
    (h.delivery hc).stored hB fuel hc.unlocked h.lands
  refine ⟨c', es, h_run, h_does, fun h_calm => ?_⟩
  have h_op : x.command.bhs.getCdb.opcode ≠ .compareAndWrite := by
    intro h_eq
    have h_write := h.write.write
    rw [h_eq] at h_write
    exact absurd h_write (by simp [ScsiOpcode.isWrite])
  have h_calm := h_calm.1 h_op
  -- undisturbed, so no backend call and no send has failed
  have h_clean : NoFailure c c' := by
    intro e he h_failed
    rw [h_does.history, List.drop_left] at he
    exact (h_calm e he).not_failed h_failed
  -- then WRITE is answered by one response, and the connection is idle again
  obtain ⟨h_medium, h_size, h_table, evs, p, ok, h_evs, h_mem, h_status⟩ := h_stored h_clean
  obtain rfl := h_does.unique h_evs
  exact ⟨h_medium, ⟨p, ok, h_mem, h_status⟩,
    hc.next ⟨es, h_does⟩ (settings_run h_run) h_size h_table⟩

/-! ### READ -/

/-- The situation a connection is in: everything but the contents of its medium.
What a command is answered with depends on it, and two connections in one
situation take the same branches. -/
def Conn.situation (T : Target β) (c : Conn β) : Situation where
  setup := T.toSetup
  blockSize := T.blockSize
  blockSize_pos := T.blockSize_pos
  blockSize_lt := T.backend.getBlockSize_lt
  size := T.backend.getSizeInBlocks c.scsi.disk
  lockedBy := c.scsi.lockedBy
  history := c.scsi.history
  ses := c.ses

theorem Conn.hosts_situation (T : Target β) (c : Conn β) :
    (c.situation T).Hosts T c.scsi.disk := ⟨rfl, rfl, rfl⟩

theorem Task.IsLoad.readable {len : ℕ} (h : IsLoad T seg size q len) (hc : Idle T seg size c) :
    (c.situation T).Readable q := by
  have h_wanted : (c.situation T).wanted q = len := h.len_eq.symm
  have h_cap : (c.situation T).cap q =
      min seg.toNat (bufferN T (c.scsi.history ++ [.received q])) := by
    rw [← hc.maxSegLen]
    rfl
  -- the conditions of a load are those of a READ that returns the medium, in this session
  refine .inr ⟨h.protect, fun h_locked => hc.unlocked ?_, h.fits.trans h_wanted.symm, ?_⟩
  · exact (c.hosts_situation T).lockedOther_iff.mpr h_locked
  · unfold Situation.BlockAligned
    rw [h_wanted, h_cap]
    exact h.aligned _

theorem Task.IsLoad.run (hB : T.backend.Stores medium) (h_fuel : 2 ^ 32 ≤ fuel) {len : ℕ}
    (h : IsLoad T seg size q len) (hc : Idle T seg size c) :
    ∃ c' es, serve T fuel c q = .ok c' ∧ c.scsi.Does c'.scsi es ∧
      (Task.Undisturbed T q es →
        Task.Done T medium seg size q (.load (q.bhs.getCdb.range.1.toNat * T.blockSize) len)
          c c' es) := by
  -- the task is a READ inside the device, in the sense of the streaming loop
  have h_read : (c.situation T).IsRead q :=
    ⟨h.opcode, h.read, h.blocks, by
      change _ ≤ c.scsi.size T
      rw [hc.size_eq]
      exact h.inside⟩
  have h_seg : 0 < (c.situation T).ses.maxSegLen.toNat := by
    change 0 < c.ses.maxSegLen.toNat
    rw [hc.maxSegLen]
    exact h.segment
  obtain ⟨c', es, h_serve, h_does, h_data, -⟩ :=
    serve_read hB (c.hosts_situation T) h_read h_seg h_fuel
  refine ⟨c', es, h_serve, h_does, fun h_calm => ?_⟩
  have h_op : q.bhs.getCdb.opcode ≠ .compareAndWrite := by
    rcases h.read with h_eq | h_eq | h_eq | h_eq <;> simp [h_eq]
  have h_calm := h_calm.1 h_op
  have h_quiet : q.Quiet := ⟨by simp [h.opcode], by simp [h.opcode], fun _ => by
    rcases h.read with h_eq | h_eq | h_eq | h_eq <;> simp [h_eq, ScsiOpcode.quiet]⟩
  -- a READ leaves the medium, the size and the table as they are
  have h_rests := Conn.Rests.serve (T := T) hB h_quiet h_serve
  refine ⟨h_rests.medium_eq, ?_,
    hc.next h_rests.grows (settings_serve h_serve) h_rests.size_eq h_rests.table_eq⟩
  -- and what is delivered is the range as the medium stores it
  have h_slice := (Situation.delivered_iff h_read h_seg).mpr (h.readable hc)
    (medium c.scsi.disk)
  exact (h_data h_calm).trans (h_slice.trans (congrArg _ h.len_eq.symm))

/-! ### UNMAP -/

/-- The loop over valid descriptors, up to the first trim that fails. If none
does, the ranges are cleared one after the other, as the disk would. -/
theorem Scsi.unmapList_clear (hB : T.backend.Stores medium) (ds : List (UInt64 × UInt32))
    {u : UnmapState β} (hl : u.scsi.lockingStatus T ≠ .lockedOther)
    (h_valid : ∀ d ∈ ds, ValidDescriptor T u.scsi d) (h_rc : u.rc = .ok)
    (h_sense : u.senseData = []) :
    ∃ evs, u.scsi.Does (unmapList T u ds).scsi evs ∧ ((∀ e ∈ evs, ¬ e.Failed) →
      unmapSense (unmapList T u ds) = [] ∧
        medium (unmapList T u ds).scsi.disk = Disk.clearAll (medium u.scsi.disk)
          (ds.map fun d => (d.1.toNat * T.blockSize, d.2.toNat * T.blockSize)) ∧
        (unmapList T u ds).scsi.size T = u.scsi.size T) := by
  -- on the descriptors that are left; the size of the device stays, so they stay valid
  induction ds generalizing u with
  | nil =>
    exact ⟨[], .refl _, fun _ => ⟨(unmapSense_eq_nil_iff u).mpr ⟨h_rc, h_sense⟩, rfl, rfl⟩⟩
  | cons d ds ih =>
    rw [List.forall_mem_cons] at h_valid
    obtain ⟨⟨h_inside, h_short⟩, h_rest⟩ := h_valid
    have h_taken : ¬ (⟨u.scsi, d.1, d.2⟩ : Meeting β).Refused T := by
      rintro (h | h)
      · exact h (validateRequest_of_inRange T u.scsi h_inside)
      · exact absurd h (UInt32.not_lt.mpr h_short)
    unfold unmapList
    by_cases h_trims : (⟨u.scsi, d.1, d.2⟩ : Meeting β).Trims T
    · rw [unmapDescriptor_of_trims h_trims]
      obtain ⟨es, ht, -⟩ := writes_trim (T := T) u.scsi d.1 d.2
      rcases ht.result with h_ok | h_locked | h_general
      · -- the trim has succeeded, and the loop goes on
        obtain ⟨h_medium, h_size⟩ := medium_trim hB h_inside h_ok
        have h_size' : (u.scsi.trim T d.1 d.2).2.size T = u.scsi.size T :=
          congrArg UInt64.toNat h_size
        rw [if_pos (by simp [h_ok])]
        obtain ⟨fs, hf, h_end⟩ := ih
          (u := { u with rc := (u.scsi.trim T d.1 d.2).1, scsi := (u.scsi.trim T d.1 d.2).2 })
          (by rw [ht.does.lockingStatus]; exact hl)
          (fun e he => by
            unfold ValidDescriptor
            rw [h_size']
            exact h_rest e he) h_ok h_sense
        refine ⟨es ++ fs, ht.does.trans hf, fun h_calm => ?_⟩
        obtain ⟨h_nil, h_med, h_sz⟩ := h_end fun e he => h_calm e (List.mem_append_right es he)
        refine ⟨h_nil, ?_, h_sz.trans h_size'⟩
        rw [h_med]
        dsimp only
        rw [h_medium]
        rfl
      · exact absurd (ht.locked h_locked) hl
      · rw [if_neg (by simp [h_general])]
        refine ⟨es, ht.does, fun h_calm => ?_⟩
        obtain ⟨e, he, h_failed⟩ := ht.fail h_general
        exact absurd h_failed (h_calm e he)
    · -- an empty descriptor
      rw [unmapDescriptor_of_empty h_taken h_trims, if_pos rfl]
      obtain ⟨fs, hf, h_end⟩ := ih hl h_rest h_rc h_sense
      refine ⟨fs, hf, fun h_calm => ?_⟩
      obtain ⟨h_nil, h_med, h_sz⟩ := h_end h_calm
      refine ⟨h_nil, ?_, h_sz⟩
      -- it clears nothing, as `clearAll` says too
      have h_zero : d.2.toNat = 0 := by
        by_contra h_pos
        exact h_trims ⟨h_taken, UInt32.lt_iff_toNat_lt.mpr (Nat.pos_of_ne_zero h_pos)⟩
      have h_clear : (medium u.scsi.disk).clear (d.1.toNat * T.blockSize) 0 =
          medium u.scsi.disk := funext fun a => if_neg (by omega)
      rw [h_med, List.map_cons, h_zero, Nat.zero_mul, Disk.clearAll, Disk.clearAll,
        List.foldl_cons, h_clear]

theorem Task.IsClear.run (hB : T.backend.Stores medium) (h : IsClear T size q)
    (hc : Idle T seg size c) :
    ∃ c' es, serve T fuel c q = .ok c' ∧ c.scsi.Does c'.scsi es ∧
      (Task.Undisturbed T q es →
        Task.Done T medium seg size q (.clear (Task.ranges T q)) c c' es) := by
  obtain ⟨k, h_len⟩ := h.length
  have h_serve := serve_unmap (T := T) fuel c h.opcode h.unmap h_len
  dsimp only at h_serve
  obtain ⟨evs, h_does, h_end⟩ := Scsi.unmapList_clear (T := T) hB
    (Scsi.unmapDescriptors (q.data.drop 8)) (u := { scsi := (c.receive q).scsi })
    hc.unlocked (fun d hd => by
      obtain ⟨h_in, h_max⟩ := h.valid d hd
      exact ⟨h_in.trans hc.size_eq.ge, h_max⟩) rfl rfl
  generalize Scsi.unmapList T { scsi := (c.receive q).scsi }
    (Scsi.unmapDescriptors (q.data.drop 8)) = u at h_serve h_does h_end
  -- what happens from the command to its response
  have h_all : c.scsi.Does (({ c with scsi := u.scsi } : Conn β).emit T
      (statusPdu T q (Scsi.unmapSense u) none)).scsi
      ([.received q] ++ evs ++ [.sent (statusPdu T q (Scsi.unmapSense u) none)
        (T.send u.scsi.history)]) :=
    ((Scsi.does_note _).trans h_does).trans (Scsi.does_note _)
  refine ⟨_, _, h_serve, h_all, fun h_calm => ?_⟩
  have h_calm := h_calm.1 (by simp [h.unmap])
  obtain ⟨h_nil, h_medium, h_size⟩ := h_end fun e he => (h_calm e (by simp [he])).not_failed
  refine ⟨h_medium, ⟨T.send u.scsi.history, ?_⟩, hc.next ⟨_, h_all⟩ rfl h_size rfl⟩
  -- no sense, so the status is GOOD
  rw [h_nil]
  simp

/-! ### COMPARE AND WRITE -/

/-- The status PDUs of two different sense data are different. -/
theorem statusPdu_ne (T : Target β) (q : Pdu) :
    statusPdu T q errorWriteError none ≠ statusPdu T q [] none ∧
      statusPdu T q errorWriteError none ≠ statusPdu T q errorMiscompare none ∧
      statusPdu T q [] none ≠ statusPdu T q errorMiscompare none := by
  unfold statusPdu ScsiResponsePdu.set
  refine ⟨fun h => ?_, fun h => ?_, fun h => ?_⟩ <;>
    simp [errorWriteError, errorMiscompare, fixedSense] at h

theorem Task.IsSwap.run (hC : T.backend.Swaps medium) (h : IsSwap T size q)
    (hc : Idle T seg size c) :
    ∃ c' es, serve T fuel c q = .ok c' ∧ c.scsi.Does c'.scsi es ∧
      (Task.Undisturbed T q es →
        Task.Done T medium seg size q (.swap (q.compareLba.toNat * T.blockSize) (q.compared T)
          (q.replacement T)) c c' es) := by
  obtain ⟨sense, s', h_outcome, h_serve⟩ := serve_compareAndWrite hC fuel
    (by rw [hc.size_eq]; exact h.size_pos) h.opcode h.compareAndWrite
    (.inr (.inr (.inr h.data)))
  -- what is compared is as long as the blocks are
  have h_len : (q.compared T).length = T.nBytes q.compareCount := by
    rw [Pdu.compared, List.length_take]
    have := h.data
    omega
  have h_matches : (q.Matches T (medium c.scsi.disk)) ↔
      (medium c.scsi.disk).slice (q.compareLba.toNat * T.blockSize) (q.compared T).length =
        q.compared T := by
    rw [h_len]
    rfl
  obtain ⟨h_bad, h_bad', -⟩ := statusPdu_ne T q
  -- the rest is the same for the two answers
  have h_done {evs : List Event} (h_does : (c.receive q).scsi.Does s' evs)
      (h_effect : medium s'.disk = (Disk.Request.swap (q.compareLba.toNat * T.blockSize)
        (q.compared T) (q.replacement T)).effect (medium c.scsi.disk))
      (h_size : s'.size T = c.scsi.size T)
      (h_sense : sense = if q.Matches T (medium c.scsi.disk) then [] else errorMiscompare) :
      ∃ c' es, serve T fuel c q = .ok c' ∧ c.scsi.Does c'.scsi es ∧
        (Task.Undisturbed T q es →
          Task.Done T medium seg size q (.swap (q.compareLba.toNat * T.blockSize)
            (q.compared T) (q.replacement T)) c c' es) := by
    refine ⟨_, _, h_serve, ((Scsi.does_note _).trans h_does).trans (Scsi.does_note _),
      fun _ => ⟨h_effect, ?_,
        hc.next ⟨_, ((Scsi.does_note _).trans h_does).trans (Scsi.does_note _)⟩ rfl h_size rfl⟩⟩
    rw [Disk.Request.answer, h_sense]
    by_cases h_match : q.Matches T (medium c.scsi.disk)
    · rw [if_pos h_match, decide_eq_true (h_matches.mp h_match)]
      exact ⟨T.send s'.history, by simp⟩
    · rw [if_neg h_match, decide_eq_false (mt h_matches.mpr h_match)]
      exact ⟨T.send s'.history, by simp⟩
  cases h_outcome with
  | refused h_refused =>
    have h_size : (c.receive q).scsi.size T = size := hc.size_eq
    rw [h_size] at h_refused
    have := h.count
    have := h.inside
    omega
  | conflict h_locked => exact absurd h_locked hc.unlocked
  | exchanged h_match h_does h_medium h_size =>
    refine h_done h_does ?_ h_size (if_pos h_match).symm
    rw [Disk.Request.effect, if_pos (h_matches.mp h_match)]
    exact h_medium
  | differs h_match h_does h_medium h_size =>
    refine h_done h_does ?_ h_size (if_neg h_match).symm
    rw [Disk.Request.effect, if_neg (mt h_matches.mpr h_match)]
    exact h_medium
  | failed h_fails h_does h_size =>
    refine ⟨_, _, h_serve, ((Scsi.does_note _).trans h_does).trans (Scsi.does_note _),
      fun h_calm => ?_⟩
    -- the answer is a write error, and no other one has been sent
    have h_sent := h_calm.2 h.compareAndWrite
    simp [h_bad.symm, h_bad'.symm] at h_sent

/-! ### Everything else -/

theorem Scsi.send_ok_of_quiet {s : Scsi β} {cdb : Cdb} (h : cdb.opcode.quiet = true) (fuel : ℕ)
    (lun : UInt64) (data : Bytes) : ∃ x, s.send T fuel lun cdb data = .ok x := by
  unfold Scsi.send
  cases h_op : cdb.opcode <;> rw [h_op] at h <;> dsimp only <;>
    first
    | exact absurd h (by decide)
    | exact ⟨_, rfl⟩

/-- A quiet command that does not stream is carried out to its end. -/
theorem serve_ok_of_quiet (h_quiet : q.bhs.getCdb.opcode.quiet = true)
    (hop : q.bhs.getOpcode = .scsiCmd) (h_streams : ¬ (c.receive q).scsi.Streams T q.bhs.getCdb) :
    ∃ c', serve T fuel c q = .ok c' := by
  obtain ⟨⟨r, s'⟩, h_send⟩ := Scsi.send_ok_of_quiet (T := T) (s := (c.receive q).scsi) h_quiet fuel
    q.bhs.getLunNr q.data
  obtain ⟨h_write, h_same⟩ := ScsiOpcode.not_write_of_quiet h_quiet
  cases (Scsi.send_kind h_write h_same h_send).1 with
  | status _ _ h => exact ⟨_, serve_of_status hop h_send h.inlineData h.location h.type⟩
  | data _ _ _ h => exact ⟨_, serve_of_isData hop h_send h⟩
  | stream _ h_stream _ _ => exact absurd h_stream h_streams

theorem serve_ok_of_one {r : Reply} {p : PduOut} (hop : q.bhs.getOpcode ≠ .scsiDataOut)
    (hget : getResponse T fuel (c.receive q) q = .ok (some { responses := [r] }, c.receive q))
    (hr : r.get T (c.receive q).ses = ([p], (c.receive q).ses)) :
    ∃ c', serve T fuel c q = .ok c' := ⟨_, serve_of_one hop hget hr⟩

/-- And so is a quiet PDU that is no SCSI Command, a login apart. None of their
handlers has a loop, or reads data without looking at its length. -/
theorem serve_ok_of_other (hq : q.Quiet) (h_scsi : q.bhs.getOpcode ≠ .scsiCmd)
    (h_login : q.bhs.getOpcode ≠ .loginReq) : ∃ c', serve T fuel c q = .ok c' := by
  cases h_op : q.bhs.getOpcode with
  | scsiCmd => exact absurd h_op h_scsi
  | scsiTaskman => exact absurd h_op hq.not_taskman
  | scsiDataOut => exact absurd h_op hq.not_dataOut
  | loginReq => exact absurd h_op h_login
  | textReq =>
    cases h_text : TextReplyPdu.set T q with
    | none =>
      -- text that cannot be parsed gets no answer
      refine ⟨_, serve_of_none hq.not_dataOut ?_⟩
      rw [getResponse, h_op]
      dsimp only
      rw [h_text]
      rfl
    | some p =>
      refine serve_ok_of_one (r := .textReply p) hq.not_dataOut ?_ rfl
      rw [getResponse, h_op]
      dsimp only
      rw [h_text]
      rfl
  | nopOut =>
    refine serve_ok_of_one (r := .nopIn (.set T q)) hq.not_dataOut ?_ rfl
    rw [getResponse, h_op]
  | logoutReq =>
    refine serve_ok_of_one (r := .logoutReply (logoutReplySet q.bhs)) hq.not_dataOut ?_ rfl
    rw [getResponse, h_op]
  | r2t =>
    refine ⟨_, serve_of_none hq.not_dataOut ?_⟩
    rw [getResponse, h_op]
  | other =>
    refine ⟨_, serve_of_none hq.not_dataOut ?_⟩
    rw [getResponse, h_op]

/-! ### Tasks -/

/-- **A task takes an idle connection to an idle one**, and asks the disk what
it asks. This is the step of the simulation, with a case for each kind of
request. -/
theorem Task.Asks.run (hB : T.backend.Stores medium) (hC : T.backend.Swaps medium)
    (h_fuel : 2 ^ 32 ≤ fuel) {x : Task} {r : Disk.Request UInt8} (h : x.Asks T seg size r)
    (hc : Idle T seg size c) :
    ∃ c' es, Machine.run (serve T fuel) c (x.pdus T c) = .ok c' ∧ c.scsi.Does c'.scsi es ∧
      (Task.Undisturbed T x.command es → Task.Done T medium seg size x.command r c c' es) := by
  -- all but a WRITE are one PDU
  have h_one {q : Pdu} {r : Disk.Request UInt8}
      (h : ∃ c' es, serve T fuel c q = .ok c' ∧ c.scsi.Does c'.scsi es ∧
        (Task.Undisturbed T q es → Task.Done T medium seg size q r c c' es)) :
      ∃ c' es, Machine.run (serve T fuel) c [q] = .ok c' ∧ c.scsi.Does c'.scsi es ∧
        (Task.Undisturbed T q es → Task.Done T medium seg size q r c c' es) := by
    obtain ⟨c', es, h_serve, h_rest⟩ := h
    exact ⟨c', es, Machine.run_cons_ok h_serve, h_rest⟩
  cases h with
  | store h => exact h.run hB hc
  | load h => exact h_one (h.run hB h_fuel hc)
  | clear h => exact h_one (h.run hB hc)
  | swap h => exact h_one (h.run hC hc)
  | @rest q h h_login h_read =>
    refine h_one ?_
    obtain ⟨c', h_serve⟩ : ∃ c', serve T fuel c q = .ok c' := by
      by_cases h_scsi : q.bhs.getOpcode = .scsiCmd
      · refine serve_ok_of_quiet (h.command h_scsi) h_scsi fun h_streams => ?_
        obtain ⟨h₆, h₁₀, h₁₂, h₁₆⟩ := h_read h_scsi
        rcases h_streams.1 with h_op | h_op | h_op | h_op
        · exact h₆ h_op
        · exact h₁₀ h_op
        · exact h₁₂ h_op
        · exact h₁₆ h_op
      · exact serve_ok_of_other h h_scsi h_login
    have h_rests := Conn.Rests.serve (T := T) hB h h_serve
    obtain ⟨es, h_does⟩ := h_rests.grows
    exact ⟨c', es, h_serve, h_does, fun _ => ⟨h_rests.medium_eq, trivial,
      hc.next h_rests.grows (settings_serve h_serve) h_rests.size_eq h_rests.table_eq⟩⟩

/-! ### Conversations -/

/-- A conversation: what has been heard of the tasks, and of the one that was
disturbed. -/
structure Conversation (β : Type) where
  heard : List (List Event)
  broken : Option (List Event)
  conn : Conn β

/-- A list of tasks, up to the first one that is disturbed. Of that one the
events are kept and what it has done to the medium, and nothing is served after
it. -/
def converse (T : Target β) (fuel : ℕ) : Conn β → List Task → Except Fault (Conversation β)
  | c, [] => .ok { heard := [], broken := none, conn := c }
  | c, x :: xs =>
    match Machine.run (serve T fuel) c (x.pdus T c) with
    | .error f => .error f
    | .ok c' =>
      let es := c'.scsi.history.drop c.scsi.history.length
      if Task.Undisturbed T x.command es then
        (converse T fuel c' xs).map fun r => { r with heard := es :: r.heard }
      else .ok { heard := [], broken := some es, conn := c' }

/-- What has been heard shows the answers, one task after the other. -/
def Heard (T : Target β) : List Task → List (Disk.Answer UInt8) → List (List Event) → Prop
  | _, _, [] => True
  | x :: xs, a :: as, es :: ess => Task.Shows T x.command es a ∧ Heard T xs as ess
  | _, _, _ => False

/-- The induction over the tasks, from one idle connection to the next. It stops
at the first task that something fails in. -/
theorem Idle.converse (hB : T.backend.Stores medium) (hC : T.backend.Swaps medium)
    (h_fuel : 2 ^ 32 ≤ fuel) {xs : List Task} {rs : List (Disk.Request UInt8)}
    (h : List.Forall₂ (Task.Asks T seg size) xs rs) (hc : Idle T seg size c) :
    ∃ r, converse T fuel c xs = .ok r ∧
      Heard T xs (Disk.answers (medium c.scsi.disk) rs) r.heard ∧
      (r.broken = none → r.heard.length = xs.length ∧
        medium r.conn.scsi.disk = Disk.effects (medium c.scsi.disk) rs ∧
        Idle T seg size r.conn) := by
  induction h generalizing c with
  | nil => exact ⟨_, rfl, trivial, fun _ => ⟨rfl, rfl, hc⟩⟩
  | @cons x r xs rs h_asks _ ih =>
    obtain ⟨c', es, h_run, h_does, h_done⟩ := h_asks.run hB hC h_fuel hc
    -- what is heard of this task is what has happened since its command
    have h_events : c'.scsi.history.drop c.scsi.history.length = es := by
      rw [h_does.history, List.drop_left]
    unfold IscsiTarget.converse
    rw [h_run]
    dsimp only
    rw [h_events]
    by_cases h_calm : Task.Undisturbed T x.command es
    · -- the task is done, and the others find an idle connection
      obtain ⟨h_effect, h_shows, h_idle⟩ := h_done h_calm
      obtain ⟨r', h_rest, h_heard, h_end⟩ := ih h_idle
      rw [h_effect] at h_heard h_end
      rw [if_pos h_calm, h_rest]
      refine ⟨_, rfl, ⟨h_shows, h_heard⟩, fun h_whole => ?_⟩
      obtain ⟨h_length, h_medium, h_idle'⟩ := h_end h_whole
      exact ⟨congrArg (· + 1) h_length, h_medium, h_idle'⟩
    · -- the conversation breaks here, and nothing is said about the rest
      rw [if_neg h_calm]
      exact ⟨_, rfl, trivial, fun h_whole => absurd h_whole (by simp)⟩

end IscsiTarget
