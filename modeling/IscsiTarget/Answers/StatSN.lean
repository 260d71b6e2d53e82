import IscsiTarget.Answers.CmdSN

/-!
# StatSN

The target has no counter for StatSN either: a PDU that bears status takes it from the
ExpStatSN of the header that it answers. So the numbers go up one by one as long as the
initiator waits for the status of one command, and acknowledges it, before the next
(`Acknowledged`), and `statSN_iff` says that it has to. Two commands that are in the window at
the same time are answered with the same StatSN.
-/

namespace IscsiTarget

variable {β : Type}

/-- The StatSNs of the PDUs that bear status. -/
def statSNs (ps : List PduOut) : List UInt32 :=
  (ps.filter PduOut.bearsStatus).filterMap fun p => p.numbers.map Numbers.statSN

/-- Each number is one more than the one before. -/
def Consecutive (ns : List UInt32) : Prop := ns.IsChain fun m n => n = m + 1

variable (T : Target β) (fuel : ℕ)

/-- The target, and the last StatSN it has sent. -/
def watched : Conn β × Option UInt32 → Pdu → Except Fault (Conn β × Option UInt32) :=
  Machine.withGhost (serve T fuel) fun c _ c' last =>
    (statSNs (sentPdus (c'.scsi.history.drop c.scsi.history.length))).getLast?.or last

/-- `q` brings about a status, and it belongs to the header `h`. For a command
that is its own header. For a Data-Out it is that of the command the R2T session
was opened for, but for a failed write, which is answered under the header of
the Data-Out. -/
inductive StatusFor (c : Conn β) (q : Pdu) : Header → Prop
  | command (h_op : q.bhs.getOpcode.isCommand = true) (h_silent : ¬ Silent T c q)
    (h_putOff : ¬ PutOff T c q) : StatusFor c q q.bhs
  | ioError (h_op : q.bhs.getOpcode = .scsiDataOut) (h_fails : DataOutFails T c q) :
    StatusFor c q q.bhs
  | burst {session : R2tSession} (h_op : q.bhs.getOpcode = .scsiDataOut)
    (h_fails : ¬ DataOutFails T c q) (h_ends : EndsBurst T c q session) :
    StatusFor c q session.pduInitiator

/-- The header that gets a status acknowledges all the status before. -/
def Acknowledged (s : Conn β × Option UInt32) (q : Pdu) : Prop :=
  ∀ h, StatusFor T s.1 q h → ∀ n, s.2 = some n → h.getExpStatSN = n + 1

/-! ### One step -/

variable {T fuel} {c c' : Conn β} {q : Pdu}

@[simp] theorem statSNs_append (ps rs : List PduOut) :
    statSNs (ps ++ rs) = statSNs ps ++ statSNs rs := by
  simp [statSNs, List.filterMap_append]

/-- PDUs with the same sequence numbers. -/
theorem statSNs_eq_replicate {ps : List PduOut} {n : Numbers}
    (h : ∀ p ∈ ps, p.numbers = some n) :
    statSNs ps = List.replicate (ps.countP PduOut.bearsStatus) n.statSN := by
  induction ps with
  | nil => rfl
  | cons p ps ih =>
    have h_rest := ih fun p' hp' => h p' (List.mem_cons_of_mem p hp')
    have h_first := h p List.mem_cons_self
    rw [← List.singleton_append, statSNs_append, h_rest]
    cases h_status : p.bearsStatus <;>
      simp [statSNs, h_status, h_first, List.replicate_succ]

/-- A PDU brings about a status for one header only. The cases exclude each
other by the opcode, or by how the Data-Out ends. -/
theorem StatusFor.unique {h₁ h₂ : Header} (h : StatusFor T c q h₁) (h' : StatusFor T c q h₂) :
    h₁ = h₂ := by
  cases h with
  | command h_op =>
    cases h' with
    | command => rfl
    | ioError => rfl
    | burst h_op' => simp [h_op', BhsOpcode.isCommand] at h_op
  | ioError h_op h_fails =>
    cases h' with
    | command => rfl
    | ioError => rfl
    | burst h_op' h_fails' => exact absurd h_fails h_fails'
  | burst h_op h_fails h_ends =>
    cases h' with
    | command h_op' => simp [h_op, BhsOpcode.isCommand] at h_op'
    | ioError h_op' h_fails' => exact absurd h_fails' h_fails
    | burst h_op' h_fails' h_ends' =>
      rw [Option.some.inj (h_ends.1.symm.trans h_ends'.1)]

/-- **One step** sends no status, or one with the StatSN that its header
expects. Nothing is counted: the number is copied from the PDU that is answered. -/
theorem statSNs_step (h_login : q.bhs.getOpcode ≠ .loginReq) (h : serve T fuel c q = .ok c') :
    ∃ ps, c.scsi.Sends c'.scsi ps ∧
      (statSNs ps = [] ∧ (T.Connected → ∀ h, ¬ StatusFor T c q h) ∨
        ∃ h, StatusFor T c q h ∧ statSNs ps = [h.getExpStatSN]) := by
  -- a command gets at most one status, under its own header
  by_cases h_command : q.bhs.getOpcode.isCommand = true
  · obtain ⟨ps, h_ps, h_ans⟩ := sends_command h_command h
    have h_all := statSNs_eq_replicate h_ans.numbers
    rw [statSN_answerNumbers] at h_all
    refine ⟨ps, h_ps, ?_⟩
    rcases Nat.le_one_iff_eq_zero_or_eq_one.mp h_ans.one with h_none | h_one
    · rw [h_none] at h_all
      refine .inl ⟨h_all, fun h_conn h' h_for => ?_⟩
      cases h_for with
      | command _ h_silent h_putOff =>
        have h_one := h_ans.settled h_conn h_silent h_putOff
        rw [h_none] at h_one
        exact absurd h_one (by simp)
      | ioError h_op => simp [h_op, BhsOpcode.isCommand] at h_command
      | burst h_op => simp [h_op, BhsOpcode.isCommand] at h_command
    · rw [h_one] at h_all
      refine .inr ⟨q.bhs, .command h_command ?_ ?_, h_all⟩
      · intro h_silent
        rw [h_ans.eq_nil.mpr h_silent] at h_one
        exact absurd h_one (by simp)
      · intro h_putOff
        rw [h_ans.deferred h_putOff] at h_one
        exact absurd h_one (by simp)
  -- a Data-Out answers the command it belongs to, unless it fails itself
  by_cases h_dataOut : q.bhs.getOpcode = .scsiDataOut
  · obtain ⟨ps, h_ps, h_ans⟩ := sends_dataOut h_dataOut h
    refine ⟨ps, h_ps, ?_⟩
    cases h_ans with
    | nothing h_fails h_ends =>
      refine .inl ⟨rfl, fun _ h' h_for => ?_⟩
      cases h_for with
      | command h_op => exact h_command h_op
      | ioError _ h_fails' => exact h_fails h_fails'
      | burst _ _ h_ends' => exact h_ends _ h_ends'
    | ioError h_fails => exact .inr ⟨q.bhs, .ioError h_dataOut h_fails, rfl⟩
    | good h_fails h_ends _ h_numbers h_status =>
      refine .inr ⟨_, .burst h_dataOut h_fails h_ends, ?_⟩
      rw [statSNs_eq_replicate h_numbers, h_status]
      rfl
  · -- nothing else is answered
    have h_rest : q.bhs.getOpcode = .r2t ∨ q.bhs.getOpcode = .other := by
      cases h_op : q.bhs.getOpcode <;> simp_all [BhsOpcode.isCommand]
    refine ⟨[], sends_nothing h_rest h, .inl ⟨rfl, fun _ h' h_for => ?_⟩⟩
    cases h_for with
    | command h_op => exact h_command h_op
    | ioError h_op => exact h_dataOut h_op
    | burst h_op => exact h_dataOut h_op

theorem watched_eq_ok_iff {last : Option UInt32} {s : Conn β × Option UInt32} {ps : List PduOut}
    (h : serve T fuel c q = .ok c') (h_ps : c.scsi.Sends c'.scsi ps) :
    watched T fuel (c, last) q = .ok s ↔ s = (c', (statSNs ps).getLast?.or last) := by
  obtain ⟨evs, h_evs, rfl⟩ := h_ps
  have h_drop : c'.scsi.history.drop c.scsi.history.length = evs := by
    rw [h_evs, List.drop_left]
  have h_step : watched T fuel (c, last) q =
      .ok (c', (statSNs (sentPdus evs)).getLast?.or last) :=
    Machine.withGhost_eq_ok.mpr ⟨h, by rw [h_drop]⟩
  rw [h_step]
  exact ⟨fun h' => (Except.ok.inj h').symm, fun h' => h' ▸ rfl⟩

/-! ### Every run -/

theorem consecutive_cons (last : Option UInt32) (n : UInt32) (ns : List UInt32) :
    Consecutive (last.toList ++ n :: ns) ↔ (∀ m, last = some m → n = m + 1) ∧
      Consecutive (n :: ns) := by
  cases last with
  | none => simp
  | some m => simp [Consecutive]

/-- What a run sends after the StatSN `last`. The numbers are consecutive when
the initiator acknowledges every status before the next one, and on a connection
that holds only then. -/
theorem statSNs_run {qs : List Pdu} {last : Option UInt32}
    (h_login : ∀ q ∈ qs, q.bhs.getOpcode ≠ .loginReq)
    (h_run : Machine.run (serve T fuel) c qs = .ok c') :
    ∃ ps, c.scsi.Sends c'.scsi ps ∧
      (Machine.Along (watched T fuel) (Acknowledged T) (c, last) qs →
        Consecutive (last.toList ++ statSNs ps)) ∧
      (T.Connected → Consecutive (last.toList ++ statSNs ps) →
        Machine.Along (watched T fuel) (Acknowledged T) (c, last) qs) := by
  -- on the run, after whatever StatSN came last
  induction qs generalizing c last with
  | nil =>
    obtain rfl := Except.ok.inj h_run
    refine ⟨[], .refl _, fun _ => ?_, fun _ _ => trivial⟩
    cases last <;> simp [Consecutive, statSNs]
  | cons q qs ih =>
    obtain ⟨c₁, h_step, h_rest⟩ := Machine.run_cons_eq_ok.mp h_run
    obtain ⟨ps, h_ps, h_status⟩ := statSNs_step (h_login q List.mem_cons_self) h_step
    have h_next := fun s => @watched_eq_ok_iff β T fuel c c₁ q last s ps h_step h_ps
    have h_tail := fun q' hq' => h_login q' (List.mem_cons_of_mem q hq')
    rcases h_status with ⟨h_none, h_quiet⟩ | ⟨h, h_for, h_one⟩
    · -- no status: the last StatSN stays what it was
      obtain ⟨rs, h_rs, h_fwd, h_bwd⟩ := @ih c₁ last h_tail h_rest
      rw [h_none] at h_next
      refine ⟨ps ++ rs, h_ps.trans h_rs, ?_, ?_⟩
      · rw [statSNs_append, h_none]
        exact fun h_along => h_fwd (h_along.2 _ ((h_next _).mpr rfl))
      · rw [statSNs_append, h_none]
        refine fun h_conn h_cons => ⟨fun h' h_for => absurd h_for (h_quiet h_conn h'), ?_⟩
        intro s h_s
        rw [(h_next s).mp h_s]
        exact h_bwd h_conn h_cons
    · -- one status: it is the last from now on
      obtain ⟨rs, h_rs, h_fwd, h_bwd⟩ := @ih c₁ (some h.getExpStatSN) h_tail h_rest
      rw [h_one] at h_next
      have h_split : Consecutive (last.toList ++ statSNs (ps ++ rs)) ↔
          (∀ m, last = some m → h.getExpStatSN = m + 1) ∧
            Consecutive (h.getExpStatSN :: statSNs rs) := by
        rw [statSNs_append, h_one]
        exact consecutive_cons last _ _
      refine ⟨ps ++ rs, h_ps.trans h_rs, ?_, ?_⟩
      · intro h_along
        exact h_split.mpr ⟨h_along.1 h h_for, h_fwd (h_along.2 _ ((h_next _).mpr rfl))⟩
      · intro h_conn h_cons
        obtain ⟨h_ack, h_cons'⟩ := h_split.mp h_cons
        refine ⟨fun h' h_for' n h_n => ?_, fun s h_s => ?_⟩
        · rw [h_for'.unique h_for]
          exact h_ack n h_n
        · rw [(h_next s).mp h_s]
          exact h_bwd h_conn h_cons'

/-- **StatSN goes up by one** from status to status exactly when every header
that gets a status acknowledges all the status before it. The target copies the
number from the ExpStatSN of the header, which is the right one while the
initiator waits for each status; when no send fails, there is no other way. -/
theorem statSN_iff {qs : List Pdu} (h_login : ∀ q ∈ qs, q.bhs.getOpcode ≠ .loginReq)
    (h_run : Machine.run (serve T fuel) c qs = .ok c') :
    (Machine.Along (watched T fuel) (Acknowledged T) (c, none) qs →
      ∀ ps, c.scsi.Sends c'.scsi ps → Consecutive (statSNs ps)) ∧
    (T.Connected → (∀ ps, c.scsi.Sends c'.scsi ps → Consecutive (statSNs ps)) →
      Machine.Along (watched T fuel) (Acknowledged T) (c, none) qs) := by
  obtain ⟨ps, h_ps, h_fwd, h_bwd⟩ := @statSNs_run β T fuel c c' qs none h_login h_run
  constructor
  · intro h_along rs h_rs
    rw [h_rs.unique h_ps]
    exact h_fwd h_along
  · exact fun h_conn h_all => h_bwd h_conn (h_all ps h_ps)

/-- A NOP-Out with a small CmdSN and ExpStatSN. -/
def Sample.ping (cmdSN expStatSN : UInt8) : Pdu :=
  { bhs := ((header 0 0x80 5 0 (Vector.replicate 16 0)).set 27 cmdSN Header.lt27).set 31
      expStatSN Header.lt31
    data_lt := Pdu.nil_lt }

/-- The initiator acknowledges the first NOP-In before it sends the second
NOP-Out, and the StatSNs are consecutive. -/
theorem statSN_pings :
    ∃ c' ps, Machine.run (serve (Sample.target 8) 0) (Sample.conn 8 [])
        [Sample.ping 0 2, Sample.ping 1 3] = .ok c' ∧
      (Sample.conn 8 []).scsi.Sends c'.scsi ps ∧ statSNs ps = [2, 3] ∧
      Machine.Along (watched (Sample.target 8) 0) (Acknowledged (Sample.target 8))
        (Sample.conn 8 [], none) [Sample.ping 0 2, Sample.ping 1 3] := by
  obtain ⟨c', h_run, h_sent⟩ := Machine.exists_ok_of_any
    (P := fun c' => statSNs (sentPdus c'.scsi.history) = [2, 3])
    (r := Machine.run (serve (Sample.target 8) 0) (Sample.conn 8 [])
      [Sample.ping 0 2, Sample.ping 1 3]) (by decide +kernel)
  have h_sends : (Sample.conn 8 []).scsi.Sends c'.scsi (sentPdus c'.scsi.history) :=
    ⟨c'.scsi.history, rfl, rfl⟩
  refine ⟨c', _, h_run, h_sends, h_sent,
    (statSN_iff (by decide) h_run).2 (fun _ => rfl) fun ps h_ps => ?_⟩
  rw [h_ps.unique h_sends, h_sent]
  simp [Consecutive]

/-- Two NOP-Outs in the window, the second on its way before the first NOP-In
has arrived, are answered with the same StatSN. -/
theorem statSN_repeats :
    (numbersFor (Sample.target 8) (Sample.ping 0 2).bhs).maxCmdSN = 128 ∧
    ∃ c' ps, Machine.run (serve (Sample.target 8) 0) (Sample.conn 8 [])
        [Sample.ping 0 2, Sample.ping 1 2] = .ok c' ∧
      (Sample.conn 8 []).scsi.Sends c'.scsi ps ∧ statSNs ps = [2, 2] ∧
      ¬ Consecutive (statSNs ps) := by
  refine ⟨by decide, ?_⟩
  obtain ⟨c', h_run, h_sent⟩ := Machine.exists_ok_of_any
    (P := fun c' => statSNs (sentPdus c'.scsi.history) = [2, 2])
    (r := Machine.run (serve (Sample.target 8) 0) (Sample.conn 8 [])
      [Sample.ping 0 2, Sample.ping 1 2]) (by decide +kernel)
  refine ⟨c', _, h_run, ⟨c'.scsi.history, rfl, rfl⟩, h_sent, ?_⟩
  rw [h_sent]
  simp [Consecutive]

end IscsiTarget
