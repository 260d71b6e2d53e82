import IscsiTarget.Answers.Step

/-!
# ExpCmdSN

The target has no counter of its own for the next CmdSN: every answer takes its ExpCmdSN from
the header of the PDU that is answered. What the counter would be is watched from outside
(`counted`), along a run whose PDUs are numbered as the standard asks for (`WellNumbered`).

`expCmdSN_iff` says when the two agree: an immediate command, unless it is a Logout, is
answered as if it had used up a number, a Logout the other way round, and the end of a burst
names the number after the WRITE it belongs to, whatever has come in since.
-/

namespace IscsiTarget

variable {β : Type}

/-! ### The numbers of a run -/

/-- The I bit. -/
def Header.isImmediate (h : Header) : Bool := getElem h 0 Header.lt0 &&& 64 != 0

/-- The CmdSN of the next command that is not immediate, after `q`. -/
def nextCmdSN (e : UInt32) (q : Pdu) : UInt32 :=
  if q.bhs.getOpcode.isCommand = true ∧ q.bhs.isImmediate = false then e + 1 else e

/-- The PDU is numbered as it has to be when `e` is the next CmdSN. -/
structure NumberedAt (e : UInt32) (q : Pdu) : Prop where
  login : q.bhs.getOpcode ≠ .loginReq
  command : q.bhs.getOpcode.isCommand = true → q.bhs.getCmdSN = e
  dataOut : q.bhs.getOpcode = .scsiDataOut → q.bhs.getCmdSN = 0

/-- The PDUs after a login are numbered in their order. -/
def WellNumbered : UInt32 → List Pdu → Prop
  | _, [] => True
  | e, q :: qs => NumberedAt e q ∧ WellNumbered (nextCmdSN e q) qs

variable (T : Target β) (fuel : ℕ)

/-- The target, and the next CmdSN. -/
def counted : Conn β × UInt32 → Pdu → Except Fault (Conn β × UInt32) :=
  Machine.withGhost (serve T fuel) fun _ q _ e => nextCmdSN e q

/-- What is sent for `q` names the next CmdSN. -/
def NamesNext (s : Conn β × UInt32) (q : Pdu) : Prop :=
  ∀ s' ps, counted T fuel s q = .ok s' → s.1.scsi.Sends s'.1.scsi ps →
    ∀ p ∈ ps, ∀ n, p.numbers = some n → n.expCmdSN = s'.2

/-- The command is immediate if and only if it is a Logout, or it gets no
answer; the Data-Out does not end in an I/O error unless the next CmdSN is 1,
and when it ends a burst, no command has come in since the WRITE that took up a
CmdSN. -/
def Timely (s : Conn β × UInt32) (q : Pdu) : Prop :=
  (q.bhs.getOpcode.isCommand = true →
    Silent T s.1 q ∨ (q.bhs.isImmediate = true ↔ q.bhs.getOpcode = .logoutReq)) ∧
  (q.bhs.getOpcode = .scsiDataOut → (DataOutFails T s.1 q → s.2 = 1) ∧
    ∀ session, EndsBurst T s.1 q session → session.pduInitiator.getCmdSN + 1 = s.2)

/-! ### One step -/

variable {T fuel} {c c' : Conn β} {e : UInt32} {q : Pdu}

theorem add_one_ne (e : UInt32) : e + 1 ≠ e := by
  intro h
  have h_nat := congrArg UInt32.toNat h
  have h_lt := e.toNat_lt
  rw [UInt32.toNat_add] at h_nat
  change (e.toNat + 1) % 2 ^ 32 = e.toNat at h_nat
  omega

/-- What the numbers of a PDU list come to, when they are all the same. -/
theorem forall_numbers_iff {ps : List PduOut} {n : Numbers} (h_ne : ps ≠ [])
    (h : ∀ p ∈ ps, p.numbers = some n) (P : Numbers → Prop) :
    (∀ p ∈ ps, ∀ m, p.numbers = some m → P m) ↔ P n := by
  constructor
  · intro h_all
    obtain ⟨p, hp⟩ := List.exists_mem_of_ne_nil ps h_ne
    exact h_all p hp n (h p hp)
  · intro h_n p hp m h_m
    obtain rfl := Option.some.inj ((h p hp).symm.trans h_m)
    exact h_n

/-- The answer to a command names the next CmdSN. It is one more than that of
the command, which is right unless the command was immediate; a logout reply
does not count on. -/
theorem expCmdSN_answerNumbers_iff (h_num : NumberedAt e q)
    (hop : q.bhs.getOpcode.isCommand = true) :
    (answerNumbers T q).expCmdSN = nextCmdSN e q ↔
      (q.bhs.isImmediate = true ↔ q.bhs.getOpcode = .logoutReq) := by
  have h_cmd := h_num.command hop
  unfold answerNumbers nextCmdSN
  -- the reply to a Logout copies the CmdSN, the others add one to it
  by_cases h_logout : q.bhs.getOpcode = .logoutReq
  · rw [if_pos h_logout]
    change q.bhs.getCmdSN = _ ↔ _
    rw [h_cmd]
    cases h_imm : q.bhs.isImmediate with
    | true => simp [h_logout]
    | false =>
      rw [if_pos ⟨hop, rfl⟩]
      simp only [Bool.false_eq_true, h_logout, iff_true, iff_false]
      exact (add_one_ne e).symm
  · rw [if_neg h_logout]
    change q.bhs.getCmdSN + 1 = _ ↔ _
    rw [h_cmd]
    cases h_imm : q.bhs.isImmediate with
    | true =>
      simp only [Bool.true_eq_false, and_false, if_false, h_logout, iff_false, not_true_eq_false]
      exact add_one_ne e
    | false => simp [hop, h_logout]

/-- **One step.** Whether all PDUs of a step name the next CmdSN can be seen
from what arrives: a command is answered at once, and a Data-Out under the
number of the command it belongs to. -/
theorem namesNext_iff (h_num : NumberedAt e q) (h : serve T fuel c q = .ok c') :
    NamesNext T fuel (c, e) q ↔ Timely T (c, e) q := by
  have h_step : counted T fuel (c, e) q = .ok (c', nextCmdSN e q) :=
    Machine.withGhost_eq_ok.mpr ⟨h, rfl⟩
  -- the PDUs are known, so the property is one about them
  have h_reduce : ∀ {ps}, c.scsi.Sends c'.scsi ps → (NamesNext T fuel (c, e) q ↔
      ∀ p ∈ ps, ∀ n, p.numbers = some n → n.expCmdSN = nextCmdSN e q) := by
    intro ps h_ps
    constructor
    · intro h_names
      exact h_names _ ps h_step h_ps
    · intro h_all s' rs h_s' h_rs
      obtain rfl := Except.ok.inj (h_step.symm.trans h_s')
      obtain rfl := h_ps.unique h_rs
      exact h_all
  by_cases h_command : q.bhs.getOpcode.isCommand = true
  · have h_dataOut : q.bhs.getOpcode ≠ .scsiDataOut := by
      intro h_op
      simp [h_op, BhsOpcode.isCommand] at h_command
    have h_timely : Timely T (c, e) q ↔
        Silent T c q ∨ (q.bhs.isImmediate = true ↔ q.bhs.getOpcode = .logoutReq) := by
      simp [Timely, h_command, h_dataOut]
    obtain ⟨ps, h_ps, h_ans⟩ := sends_command h_command h
    rw [h_reduce h_ps, h_timely]
    by_cases h_silent : Silent T c q
    · rw [h_ans.eq_nil.mpr h_silent]
      exact iff_of_true (by simp) (.inl h_silent)
    · rw [or_iff_right h_silent, ← @expCmdSN_answerNumbers_iff _ T e q h_num h_command]
      exact forall_numbers_iff (mt h_ans.eq_nil.mp h_silent) h_ans.numbers
        fun n => n.expCmdSN = nextCmdSN e q
  have h_next : nextCmdSN e q = e := if_neg fun h' => h_command h'.1
  rw [h_next] at h_reduce
  by_cases h_dataOut : q.bhs.getOpcode = .scsiDataOut
  · have h_timely : Timely T (c, e) q ↔ (DataOutFails T c q → e = 1) ∧
        ∀ session, EndsBurst T c q session → session.pduInitiator.getCmdSN + 1 = e :=
      ⟨fun h' => h'.2 h_dataOut, fun h' => ⟨fun h'' => absurd h'' h_command, fun _ => h'⟩⟩
    obtain ⟨ps, h_ps, h_ans⟩ := sends_dataOut h_dataOut h
    rw [h_reduce h_ps, h_timely]
    cases h_ans with
    | nothing h_fails h_ends =>
      exact iff_of_true (by simp) ⟨fun h' => absurd h' h_fails, fun s h' => absurd h' (h_ends s)⟩
    | ioError h_fails h_ends =>
      have h_numbers : (ioErrorPdu T q).numbers = some (numbersFor T q.bhs) := rfl
      rw [forall_numbers_iff (List.cons_ne_nil _ _)
        (n := numbersFor T q.bhs) (by simp [h_numbers]) fun n => n.expCmdSN = e]
      change q.bhs.getCmdSN + 1 = e ↔ _
      rw [h_num.dataOut h_dataOut, UInt32.zero_add]
      exact ⟨fun h' => ⟨fun _ => h'.symm, fun s h'' => absurd h'' (h_ends s)⟩,
        fun h' => (h'.1 h_fails).symm⟩
    | @good session ps h_fails h_ends h_ne h_numbers h_status =>
      rw [forall_numbers_iff h_ne h_numbers fun n => n.expCmdSN = e]
      change session.pduInitiator.getCmdSN + 1 = e ↔ _
      refine ⟨fun h' => ⟨fun h'' => absurd h'' h_fails, fun s h'' => ?_⟩, fun h' => h'.2 _ h_ends⟩
      obtain rfl := Option.some.inj (h_ends.1.symm.trans h''.1)
      exact h'
  · have h_rest : q.bhs.getOpcode = .r2t ∨ q.bhs.getOpcode = .other := by
      have h_login := h_num.login
      cases h_op : q.bhs.getOpcode <;> simp_all [BhsOpcode.isCommand]
    rw [h_reduce (sends_nothing h_rest h)]
    exact iff_of_true (by simp) ⟨fun h' => absurd h' h_command, fun h' => absurd h' h_dataOut⟩

/-! ### Every run -/

/-- **ExpCmdSN names the next command** all along a run exactly when all its
PDUs are `Timely`. The target does not count the commands: each answer copies
what it says from the header it replies to, so it is right as long as that
header is the one of the command that has come last. -/
theorem expCmdSN_iff {qs : List Pdu} (h_num : WellNumbered e qs)
    (h_run : Machine.run (serve T fuel) c qs = .ok c') :
    Machine.Along (counted T fuel) (NamesNext T fuel) (c, e) qs ↔
      Machine.Along (counted T fuel) (Timely T) (c, e) qs := by
  induction qs generalizing c e with
  | nil => exact Iff.rfl
  | cons q qs ih =>
    obtain ⟨c₁, h_step, h_rest⟩ := Machine.run_cons_eq_ok.mp h_run
    refine and_congr (namesNext_iff h_num.1 h_step) (forall₂_congr fun s' h_s' => ?_)
    obtain ⟨h_serve, h_ghost⟩ := Machine.withGhost_eq_ok.mp h_s'
    obtain ⟨c₂, e'⟩ := s'
    obtain rfl : e' = nextCmdSN e q := h_ghost
    obtain rfl : c₁ = c₂ := Except.ok.inj (h_step.symm.trans h_serve)
    exact ih h_num.2 h_rest

/-- A NOP-Out with CmdSN 1, behind one with CmdSN 0. -/
def Sample.nextNopOut : Pdu :=
  { bhs := #v[0x00, 0x80, 0, 0, 0, 0, 0, 0, 0, 0, 0, 0, 0, 0, 0, 0,
      6, 0, 0, 0, 0, 0, 0, 0, 0, 0, 0, 1, 0, 0, 0, 0,
      0, 0, 0, 0, 0, 0, 0, 0, 0, 0, 0, 0, 0, 0, 0, 0],
    data_lt := Pdu.nil_lt }

/-- A NOP-Out with CmdSN 0. -/
def Sample.nopOut (immediate : Bool) : Pdu :=
  { bhs := header (if immediate then 0x40 else 0) 0x80 5 0 (Vector.replicate 16 0),
    data_lt := Pdu.nil_lt }

/-- Two NOP-Outs one after the other. The first is answered with ExpCmdSN 1, the
second with ExpCmdSN 2. -/
theorem expCmdSN_nopOuts :
    ∃ c', Machine.run (serve (Sample.target 8) 0) (Sample.conn 8 [])
          [Sample.nopOut false, Sample.nextNopOut] = .ok c' ∧
      Machine.Along (counted (Sample.target 8) 0) (NamesNext (Sample.target 8) 0)
        (Sample.conn 8 [], 0) [Sample.nopOut false, Sample.nextNopOut] := by
  obtain ⟨c', h_run, -⟩ := Machine.exists_ok_of_any (P := fun _ => True)
    (r := Machine.run (serve (Sample.target 8) 0) (Sample.conn 8 [])
      [Sample.nopOut false, Sample.nextNopOut])
    (by decide +kernel)
  have h_num : WellNumbered 0 [Sample.nopOut false, Sample.nextNopOut] :=
    ⟨⟨by decide, by decide, by decide⟩, ⟨by decide, by decide, by decide⟩, trivial⟩
  refine ⟨c', h_run, (expCmdSN_iff h_num h_run).mpr ?_⟩
  refine ⟨⟨fun _ => .inr (by decide), fun h => absurd h (by decide)⟩, fun _ _ => ?_⟩
  exact ⟨⟨fun _ => .inr (by decide), fun h => absurd h (by decide)⟩, fun _ _ => trivial⟩

/-- An immediate NOP-Out is answered with ExpCmdSN 1, but the next CmdSN is
still 0. The initiator takes it that a command has arrived which it has not
sent. -/
theorem expCmdSN_fails :
    WellNumbered 0 [Sample.nopOut true] ∧
    ∃ c' p n, serve (Sample.target 8) 0 (Sample.conn 8 []) (Sample.nopOut true) = .ok c' ∧
      (Sample.conn 8 []).scsi.Sends c'.scsi [p] ∧ p.numbers = some n ∧
      n.expCmdSN = 1 ∧ nextCmdSN 0 (Sample.nopOut true) = 0 ∧
      ¬ Machine.Along (counted (Sample.target 8) 0) (NamesNext (Sample.target 8) 0)
        (Sample.conn 8 [], 0) [Sample.nopOut true] := by
  have h_next : nextCmdSN 0 (Sample.nopOut true) = 0 := by decide
  obtain ⟨c', h_serve, h_sent⟩ := Machine.exists_ok_of_any
    (P := fun c' => sentPdus c'.scsi.history =
      [.nopIn (.set (Sample.target 8) (Sample.nopOut true))])
    (r := serve (Sample.target 8) 0 (Sample.conn 8 []) (Sample.nopOut true)) (by decide +kernel)
  have h_sends : (Sample.conn 8 []).scsi.Sends c'.scsi
      [.nopIn (.set (Sample.target 8) (Sample.nopOut true))] := ⟨c'.scsi.history, rfl, h_sent⟩
  have h_one : (numbersFor (Sample.target 8) (Sample.nopOut true).bhs).expCmdSN = 1 := by decide
  refine ⟨⟨⟨by decide, by decide, by decide⟩, trivial⟩, c', _, _, h_serve, h_sends, rfl, h_one,
    h_next, fun h_along => ?_⟩
  have h_names : _ = (0 : UInt32) := h_along.1 (c', 0) _
    (Machine.withGhost_eq_ok.mpr ⟨h_serve, h_next.symm⟩) h_sends _ (List.mem_singleton_self _) _ rfl
  exact absurd (h_one.symm.trans h_names) (by decide)

end IscsiTarget
