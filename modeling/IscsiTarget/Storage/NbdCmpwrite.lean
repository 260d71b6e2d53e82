import IscsiTarget.Storage.Contract
import IscsiTarget.Storage.Pairing

/-!
# `cmpwrite` of the NBD backend

It compares everything and then writes once, with one request to the server for each block
and one for the write. `StageClean` follows a request that meets no error through
`invoke_nbd`, and `NbdInv` follows `cmpwrite` from request to request. The length of the
write has 32 bits, so the end of a long range is not written: `nbd_allOrNothing_iff`.
-/

namespace IscsiTarget

open LockedSections

section Nbd

/-- The socket works, and the server does not report an error. -/
def NbdNoError : NbdLabel → Prop
  | .ok => True
  | .fail _ => False
  | .serve error _ => error = 0

/-- `backend_nbd::cmpwrite`, with the connection and the server in the state
`s`. The connection may be lost and set up again on the way, unless `clean`
holds. -/
def NbdEnds (b : Build) (blockNr : UInt64) (nBlocks : UInt32) (dataWrite dataCompare : Bytes)
    (s : NbdShared) (clean : Prop) (result : CmpwriteResult) (m' : Medium UInt8) : Prop :=
  ∃ s', Alone (nbdProgram b) (.cmpwrite blockNr nBlocks dataWrite dataCompare)
    (fun l _ => clean → NbdNoError l) (.invoke 0 (zeros nbdBlockSize) .start) s
    (.compared result) s' ∧ s'.contents = m'

/-- What a request without errors makes of a medium. -/
def NbdRequest.effect (r : NbdRequest) (sent : Bytes) (m : Medium UInt8) : Medium UInt8 :=
  if r.type = nbdCmdWrite then m.store r.offset sent else m

/-- The request is under way, or its reply is. -/
def Underway (r : NbdRequest) (sent : Bytes) (m : Medium UInt8) (id : ℕ) (s : NbdShared) : Prop :=
  (s.conn = some { up := stamp id (r.encode ++ sent) } ∧ s.contents = m) ∨
    (s.conn = some { down := stamp id (r.reply 0 s.contents) } ∧
      sent.length = r.payloadLength ∧ s.contents = r.effect sent m)

/-- Where a request is that meets no error, by the stage of `invoke_nbd`. The
server has executed it from the moment its reply is there. -/
def StageClean (r : NbdRequest) (sent : Bytes) (m : Medium UInt8) (s : NbdShared) :
    NbdStage → Prop
  | .start => s.contents = m
  | .headerSent id => r.type = nbdCmdWrite ∧ Underway r [] m id s
  | .waiting id => Underway r sent m id s
  | .replied id => r.type = nbdCmdRead ∧ s.contents = m ∧
      s.conn = some { down := stamp id (m.slice r.offset r.length) }
  | .check => s.conn = some {} ∧ s.contents = r.effect sent m
  | .leaving => s.conn = some {} ∧ s.contents = r.effect sent m

variable {b : Build} {blockNr : UInt64} {nBlocks : UInt32} {dataWrite dataCompare : Bytes}
  {m : Medium UInt8} {l : NbdLabel} {s s' : NbdShared}

/-- The requests of the loop. -/
theorem request_turn {i : ℕ} (h_range : (blockNr.toNat + nBlocks.toNat) * nbdBlockSize < 2 ^ 64)
    (hi : i < nBlocks.toNat) :
    (NbdSection.cmpwrite blockNr nBlocks dataWrite dataCompare).request i =
      { type := nbdCmdRead, offset := blockNr.toNat * nbdBlockSize + i * nbdBlockSize,
        length := nbdBlockSize } := by
  rw [NbdSection.request, if_pos hi, NbdSection.offset,
    toNat_offset h_range (by decide) hi.le]

/-- The request behind the loop. -/
theorem request_last (h_range : (blockNr.toNat + nBlocks.toNat) * nbdBlockSize < 2 ^ 64) :
    (NbdSection.cmpwrite blockNr nBlocks dataWrite dataCompare).request nBlocks.toNat =
      { type := nbdCmdWrite, offset := blockNr.toNat * nbdBlockSize,
        length := NbdSection.nBytes nBlocks } := by
  have h_first : (blockNr.toNat + 0) * nbdBlockSize < 2 ^ 64 :=
    lt_of_le_of_lt (Nat.mul_le_mul_right _ (Nat.add_le_add_left (Nat.zero_le _) _)) h_range
  rw [NbdSection.request, if_neg (lt_irrefl _), NbdSection.offset_eq h_first]

/-- **A step of `invoke_nbd` without errors**, unless it is the last one. The
stages follow each other: the header, the data, the reply, the buffer, the
check. -/
theorem stageClean_act {sec : NbdSection} {i : ℕ} {buffer : Bytes} {stage : NbdStage}
    {w' : NbdWork} (h_act : nbdAct .ok sec (.invoke i buffer stage) s = some (w', s'))
    (h_fits : sec.Fits) (h_calm : stage = .start → s.Calm)
    (h : StageClean (sec.request i) (sec.sent i) m s stage) :
    (∃ buffer' stage', w' = .invoke i buffer' stage' ∧
        StageClean (sec.request i) (sec.sent i) m s' stage') ∨
      (stage = .leaving ∧ w' = sec.returned i true buffer ∧ s' = s) := by
  cases stage with
  | start =>
    left
    -- on a closed socket the loop connects first and starts over
    rcases h_calm rfl with hc | hc
    · simp only [nbdAct, hc, Option.some.injEq, Prod.mk.injEq] at h_act
      obtain ⟨rfl, rfl⟩ := h_act
      exact ⟨buffer, .start, rfl, h⟩
    · simp only [nbdAct, hc, Option.some.injEq, Prod.mk.injEq] at h_act
      obtain ⟨rfl, rfl⟩ := h_act
      -- the header goes out, and of the payload nothing yet
      have h_header : Underway (sec.request i) [] m s.nextId
          { s with
            conn := some { up := stamp s.nextId (sec.request i).encode }
            nextId := s.nextId + 1 } := by
        refine .inl ⟨?_, h⟩
        rw [List.append_nil]
      -- only a write has a payload to send behind it
      by_cases hw : (sec.request i).type = nbdCmdWrite
      · exact ⟨buffer, .headerSent s.nextId, by rw [if_pos hw], hw, h_header⟩
      · refine ⟨buffer, .waiting s.nextId, by rw [if_neg hw], ?_⟩
        rw [NbdSection.sent, if_neg hw]
        exact h_header
  | headerSent id =>
    left
    obtain ⟨hw, h_wire⟩ := h
    have h_sent : sec.payload.take (sec.request i).length = sec.sent i := by
      rw [NbdSection.sent, if_pos hw]
    rcases h_wire with ⟨hc, h_contents⟩ | ⟨hc, h_len, h_contents⟩
    · simp only [nbdAct, hc, Option.some.injEq, Prod.mk.injEq] at h_act
      obtain ⟨rfl, rfl⟩ := h_act
      refine ⟨buffer, .waiting id, rfl, .inl ⟨?_, h_contents⟩⟩
      rw [h_sent, List.append_nil, ← stamp_append]
    · -- the header alone was a whole request: there is no payload
      simp only [nbdAct, hc, Option.some.injEq, Prod.mk.injEq] at h_act
      obtain ⟨rfl, rfl⟩ := h_act
      have h_nil : sec.sent i = [] := by
        apply List.eq_nil_of_length_eq_zero
        rw [NbdSection.length_sent h_fits, ← h_len, List.length_nil]
      refine ⟨buffer, .waiting id, rfl, .inr ?_⟩
      rw [h_sent, h_nil]
      exact ⟨rfl, h_len, h_contents⟩
  | waiting id =>
    left
    rcases h with ⟨hc, h_contents⟩ | ⟨hc, h_len, h_contents⟩
    · simp [nbdAct, hc] at h_act
    · set r := sec.request i with hr
      have h_reply := r.length_reply 0 s.contents
      simp only [nbdAct, hc, ← hr, length_stamp, if_pos h_reply, take_stamp, drop_stamp,
        map_fst_stamp, NbdRequest.take_reply, NbdRequest.drop_reply, NbdRequest.magic_reply,
        NbdRequest.error_reply, ne_eq, not_true_eq_false, if_false, UInt32.toNat_zero] at h_act
      -- the answer is there; only a read has data behind it
      by_cases hread : r.type = nbdCmdRead
      · rw [if_pos hread] at h_act
        obtain ⟨rfl, rfl⟩ := Prod.mk.inj (Option.some.inj h_act)
        have h_not_write : r.type ≠ nbdCmdWrite := by rw [hread]; decide
        rw [NbdRequest.effect, if_neg h_not_write] at h_contents
        refine ⟨buffer, .replied id, rfl, hread, h_contents, ?_⟩
        have h_data : r.replyData 0 s.contents = s.contents.slice r.offset r.length :=
          if_pos ⟨hread, rfl⟩
        rw [h_data, h_contents]
      · rw [if_neg hread] at h_act
        obtain ⟨rfl, rfl⟩ := Prod.mk.inj (Option.some.inj h_act)
        have h_data : r.replyData 0 s.contents = [] := if_neg fun h => hread h.1
        refine ⟨buffer, .check, rfl, ?_, h_contents⟩
        rw [h_data]
        rfl
  | replied id =>
    left
    obtain ⟨hread, h_contents, hc⟩ := h
    have h_not_write : (sec.request i).type ≠ nbdCmdWrite := by rw [hread]; decide
    simp only [nbdAct, hc, length_stamp, Medium.length_slice, le_refl, if_true, take_stamp,
      drop_stamp, map_fst_stamp, Option.some.injEq, Prod.mk.injEq] at h_act
    obtain ⟨rfl, rfl⟩ := h_act
    refine ⟨_, .check, rfl, ?_, ?_⟩
    · rw [List.drop_of_length_le (Medium.length_slice _ _ _).le]
      rfl
    · rw [NbdRequest.effect, if_neg h_not_write]
      exact h_contents
  | check =>
    left
    obtain ⟨hc, h_contents⟩ := h
    simp only [nbdAct, hc, Option.some.injEq, Prod.mk.injEq] at h_act
    obtain ⟨rfl, rfl⟩ := h_act
    exact ⟨buffer, .leaving, rfl, hc, h_contents⟩
  | leaving =>
    right
    obtain ⟨hc, h_contents⟩ := h
    simp only [nbdAct, hc, Option.isSome_some, Option.some.injEq, Prod.mk.injEq] at h_act
    exact ⟨rfl, h_act.1.symm, h_act.2.symm⟩

/-- The server's step, when it does not report an error. It answers a request
that is complete, and has nothing to do before. -/
theorem stageClean_serve {sec : NbdSection} {i : ℕ} {stage : NbdStage} {error : UInt32}
    {cleared : Bool} (h_serve : nbdServe (.serve error cleared) s = some s') (h_error : error = 0)
    (h_fits : sec.Fits) (h_calm : stage = .start → s.Calm)
    (h_trim : (sec.request i).type ≠ nbdCmdTrim)
    (h : StageClean (sec.request i) (sec.sent i) m s stage) :
    StageClean (sec.request i) (sec.sent i) m s' stage := by
  subst h_error
  have h_applied : ∀ sent contents, (sec.request i).applied 0 cleared sent contents =
      (sec.request i).effect sent contents := by
    intro sent contents
    unfold NbdRequest.applied NbdRequest.effect
    rw [if_neg (not_not.mpr rfl)]
    split
    · rfl
    · rw [if_neg fun h => h_trim h.1]
  -- what is under way is answered
  have h_underway : ∀ {sent : Bytes} {id : ℕ}, sent.length ≤ (sec.request i).payloadLength →
      Underway (sec.request i) sent m id s → Underway (sec.request i) sent m id s' := by
    intro sent id h_le h_under
    rcases h_under with ⟨hc, h_contents⟩ | ⟨hc, -⟩
    · rw [serve_unread hc (sec.request_valid i) h_le] at h_serve
      split at h_serve
      · cases h_serve
      · next h_complete =>
        obtain rfl := Option.some.inj h_serve
        rw [h_applied, h_contents]
        exact .inr ⟨rfl, h_le.antisymm (not_lt.mp h_complete), rfl⟩
    · rw [serve_of_up_nil hc rfl] at h_serve
      cases h_serve
  cases stage with
  | start =>
    rw [serve_of_calm (h_calm rfl)] at h_serve
    cases h_serve
  | headerSent id => exact ⟨h.1, h_underway (Nat.zero_le _) h.2⟩
  | waiting id => exact h_underway (NbdSection.length_sent h_fits i).le h
  | replied id =>
    rw [serve_of_up_nil h.2.2 rfl] at h_serve
    cases h_serve
  | check =>
    rw [serve_of_calm (.inr h.1)] at h_serve
    cases h_serve
  | leaving =>
    rw [serve_of_calm (.inr h.1)] at h_serve
    cases h_serve

/-- A step of `invoke_nbd`, with I/O errors or without them, unless it is the
last one. An error ends the call, which then returns false. -/
theorem invoke_act {sec : NbdSection} {i : ℕ} {buffer : Bytes} {stage : NbdStage} {w' : NbdWork}
    (h_act : nbdAct l sec (.invoke i buffer stage) s = some (w', s')) :
    (∃ buffer' stage', w' = .invoke i buffer' stage') ∨ w' = sec.returned i false buffer ∨
      stage = .leaving ∧ w' = sec.returned i s.conn.isSome buffer := by
  -- the call is left at two places: at the end, and at a reply that reports an error
  cases stage with
  | leaving =>
    cases l with
    | ok =>
      simp only [nbdAct, Option.some.injEq, Prod.mk.injEq] at h_act
      exact .inr (.inr ⟨rfl, h_act.1.symm⟩)
    | fail moved => simp [nbdAct] at h_act
    | serve error cleared => simp [nbdAct] at h_act
  | waiting id =>
    cases l with
    | ok =>
      cases hc : s.conn with
      | none => simp [nbdAct, hc] at h_act
      | some wire =>
        simp only [nbdAct, hc] at h_act
        split_ifs at h_act
        all_goals
          obtain ⟨rfl, rfl⟩ := Prod.mk.inj (Option.some.inj h_act)
          first
            | exact .inl ⟨_, _, rfl⟩
            | exact .inr (.inl rfl)
    | fail moved =>
      simp only [nbdAct, Option.some.injEq, Prod.mk.injEq] at h_act
      exact .inl ⟨_, _, h_act.1.symm⟩
    | serve error cleared => simp [nbdAct] at h_act
  | replied id =>
    left
    cases l with
    | ok =>
      cases hc : s.conn with
      | none => simp [nbdAct, hc] at h_act
      | some wire =>
        simp only [nbdAct, hc] at h_act
        split_ifs at h_act
        obtain ⟨rfl, rfl⟩ := Prod.mk.inj (Option.some.inj h_act)
        exact ⟨_, _, rfl⟩
    | fail moved =>
      simp only [nbdAct, Option.some.injEq, Prod.mk.injEq] at h_act
      exact ⟨_, _, h_act.1.symm⟩
    | serve error cleared => simp [nbdAct] at h_act
  | start =>
    left
    cases l <;> cases hc : s.conn <;> simp [nbdAct, hc] at h_act
    all_goals exact ⟨_, _, h_act.1.symm⟩
  | headerSent id =>
    left
    cases l <;> cases hc : s.conn <;> simp [nbdAct, hc] at h_act
    all_goals exact ⟨_, _, h_act.1.symm⟩
  | check =>
    left
    cases l <;> cases hc : s.conn <;> simp [nbdAct, hc] at h_act
    all_goals exact ⟨_, _, h_act.1.symm⟩

/-- What holds while `cmpwrite` is at work, and when it is done. The blocks are
compared by one request each, and the server stores what it did until the last
request, which is the write. -/
def NbdInv (blockNr : UInt64) (nBlocks : UInt32) (dataWrite dataCompare : Bytes)
    (m : Medium UInt8) (clean : Prop) (w : NbdWork) (s : NbdShared) : Prop :=
  let sec : NbdSection := .cmpwrite blockNr nBlocks dataWrite dataCompare
  let off := blockNr.toNat * nbdBlockSize
  (WorkOk sec s w ∧ (¬ w.Inside → s.Calm) ∧ s.Paired) ∧
    match w with
    | .invoke i _ stage =>
      i ≤ nBlocks.toNat ∧ Matches m off nbdBlockSize dataCompare i ∧
        (i < nBlocks.toNat → s.contents = m) ∧
        (clean → StageClean (sec.request i) (sec.sent i) m s stage)
    | .compared .ok =>
      Matches m off nbdBlockSize dataCompare nBlocks.toNat ∧
        (clean → s.contents = m.store off (dataWrite.take (NbdSection.nBytes nBlocks)))
    | .compared .mismatch =>
      s.contents = m ∧ ¬ Matches m off nbdBlockSize dataCompare nBlocks.toNat
    | .compared _ => ¬ clean
    | .done _ _ => False

/-- A call of `invoke_nbd` that fails ends `cmpwrite`. -/
theorem returned_false (i : ℕ) (buffer : Bytes) :
    (NbdSection.cmpwrite blockNr nBlocks dataWrite dataCompare).returned i false buffer =
      .compared (if i < nBlocks.toNat then .readError else .writeError) := by
  unfold NbdSection.returned
  dsimp only
  split <;> rfl

theorem returned_turn {i : ℕ} (h_turn : i < nBlocks.toNat) (buffer : Bytes) :
    (NbdSection.cmpwrite blockNr nBlocks dataWrite dataCompare).returned i true buffer =
      if buffer = (dataCompare.drop (i * nbdBlockSize)).take nbdBlockSize then
        .invoke (i + 1) buffer .start
      else .compared .mismatch := by
  unfold NbdSection.returned
  dsimp only
  rw [if_pos h_turn, if_pos rfl]

theorem returned_last (buffer : Bytes) :
    (NbdSection.cmpwrite blockNr nBlocks dataWrite dataCompare).returned nBlocks.toNat true buffer =
      .compared .ok := by
  unfold NbdSection.returned
  dsimp only
  rw [if_neg (lt_irrefl _), if_pos rfl]

theorem returned_true_ne (i : ℕ) (buffer : Bytes) :
    (NbdSection.cmpwrite blockNr nBlocks dataWrite dataCompare).returned i true buffer ≠
      (NbdSection.cmpwrite blockNr nBlocks dataWrite dataCompare).returned i false buffer := by
  rw [returned_false]
  unfold NbdSection.returned
  dsimp only
  by_cases h_turn : i < nBlocks.toNat
  · rw [if_pos h_turn, if_pos h_turn, if_pos rfl]
    split <;> simp
  · rw [if_neg h_turn, if_neg h_turn]
    simp

/-- A step of the thread. By cases on the stage, and at the end of a call on
what the loop of `cmpwrite` makes of its result. -/
theorem nbdInv_act {clean : Prop} {w w' : NbdWork}
    (h_fits : (NbdSection.cmpwrite blockNr nBlocks dataWrite dataCompare).Fits)
    (h_compare : dataCompare.length = nBlocks.toNat * nbdBlockSize)
    (h : NbdInv blockNr nBlocks dataWrite dataCompare m clean w s)
    (h_l : clean → NbdNoError l)
    (h_act : nbdAct l (.cmpwrite blockNr nBlocks dataWrite dataCompare) w s = some (w', s')) :
    NbdInv blockNr nBlocks dataWrite dataCompare m clean w' s' := by
  have h_range : (blockNr.toNat + nBlocks.toNat) * nbdBlockSize < 2 ^ 64 := h_fits.1
  obtain ⟨⟨h_work, h_calm, h_paired⟩, h⟩ := h
  -- that requests and replies stay in order is known of every function of the backend; what is left
  -- is the comparison and the contents
  obtain ⟨h_work', h_calm', h_paired', h_same⟩ :=
    leavesOrder_act h_act h_fits h_work h_calm h_paired
  refine ⟨⟨h_work', h_calm', h_paired'⟩, ?_⟩
  cases w with
  | done ok buffer => cases h_act
  | compared result => cases h_act
  | invoke i buffer stage =>
    obtain ⟨h_i, h_matches, h_contents, h_clean⟩ := h
    -- without I/O errors the stages are those of one request after the other
    have h_step : clean → _ := fun hc =>
      have h_ok : l = .ok := by
        cases l with
        | ok => rfl
        | fail moved => exact absurd (h_l hc) id
        | serve error cleared => cases stage <;> simp [nbdAct] at h_act
      stageClean_act (h_ok ▸ h_act) h_fits
          (fun h_start => h_calm (by simp [NbdWork.Inside, h_start]))
        (h_clean hc)
    rcases invoke_act h_act with ⟨buffer', stage', rfl⟩ | rfl | ⟨rfl, rfl⟩
    · refine ⟨h_i, h_matches, fun hi => h_same.trans (h_contents hi), fun hc => ?_⟩
      rcases h_step hc with ⟨_, _, h_eq, h_stage⟩ | ⟨-, h_eq, -⟩
      · obtain ⟨-, -, rfl⟩ := NbdWork.invoke.inj h_eq
        exact h_stage
      · unfold NbdSection.returned at h_eq
        dsimp only at h_eq
        split_ifs at h_eq
        have h_turn : i = i + 1 := (NbdWork.invoke.inj h_eq).1
        omega
    · -- an error
      have h_dirty : ¬ clean := by
        intro hc
        rcases h_step hc with ⟨_, _, h_eq, -⟩ | ⟨-, h_eq, -⟩
        · rw [returned_false] at h_eq
          cases h_eq
        · exact returned_true_ne _ _ h_eq.symm
      rw [returned_false]
      by_cases h_turn : i < nBlocks.toNat
      · rw [if_pos h_turn]
        exact h_dirty
      · rw [if_neg h_turn]
        exact h_dirty
    · obtain ⟨hc, h_filled⟩ : s.conn = some {} ∧ _ := h_work
      rw [hc, Option.isSome_some] at h_step ⊢
      by_cases h_turn : i < nBlocks.toNat
      · rw [returned_turn h_turn]
        -- a turn of the loop has read block `i` as it was at the beginning: nothing is written
        -- before the end
        have h_at : buffer = m.slice (blockNr.toNat * nbdBlockSize + i * nbdBlockSize)
            nbdBlockSize := by
          have h_buffer := h_filled (by rw [request_turn h_range h_turn])
          rw [request_turn h_range h_turn, h_contents h_turn] at h_buffer
          exact h_buffer
        by_cases h_equal : buffer = (dataCompare.drop (i * nbdBlockSize)).take nbdBlockSize
        · rw [if_pos h_equal]
          refine ⟨h_turn, (matches_succ h_compare h_turn).mpr ⟨h_matches, ?_⟩,
            fun _ => h_same.trans (h_contents h_turn), fun _ => h_same.trans (h_contents h_turn)⟩
          exact h_at.symm.trans h_equal
        · rw [if_neg h_equal]
          refine ⟨h_same.trans (h_contents h_turn), not_matches h_compare h_turn fun h => ?_⟩
          exact h_equal (h_at.trans h)
      · obtain rfl : i = nBlocks.toNat := by omega
        -- the write behind the loop
        rw [returned_last]
        refine ⟨h_matches, fun h_ok => ?_⟩
        have h_written : _ ∧ s.contents = _ := h_clean h_ok
        rw [h_same, h_written.2, NbdRequest.effect, NbdSection.sent, request_last h_range]
        rfl

/-- Serving a read request changes nothing. It is a read request that is under
way as long as the blocks are being compared. -/
theorem contents_of_read {sec : NbdSection} {i : ℕ} {buffer : Bytes} {stage : NbdStage}
    (h_serve : nbdServe l s = some s') (h_work : WorkOk sec s (.invoke i buffer stage))
    (h_read : (sec.request i).type = nbdCmdRead) (h_fits : sec.Fits) (h_start : stage ≠ .start) :
    s'.contents = s.contents := by
  have h_not_write : (sec.request i).type ≠ nbdCmdWrite := by rw [h_read]; decide
  have h_not_trim : (sec.request i).type ≠ nbdCmdTrim := by rw [h_read]; decide
  cases stage with
  | start => exact absurd rfl h_start
  -- this stage belongs to requests with a payload
  | headerSent id => exact absurd h_work.1 h_not_write
  | waiting id =>
    obtain ⟨wire, hc, hex⟩ := h_work
    obtain ⟨error, cleared, -, -, rfl⟩ := serve_exchange_eq h_serve hc hex (sec.request_valid i)
      (NbdSection.length_sent h_fits i).le
    change (sec.request i).applied error cleared _ s.contents = s.contents
    have h_clear : ¬ ((sec.request i).type = nbdCmdTrim ∧ cleared = true) :=
      fun h => h_not_trim h.1
    unfold NbdRequest.applied
    rw [if_neg h_not_write, if_neg h_clear, ite_self]
  -- from here on there is no request that the server could take
  | replied id =>
    rw [serve_of_up_nil h_work rfl] at h_serve
    cases h_serve
  | check =>
    rw [serve_of_calm (h_work.imp id And.left)] at h_serve
    cases h_serve
  | leaving =>
    rw [serve_of_calm (.inr h_work.1)] at h_serve
    cases h_serve

/-- A step of the server. While blocks are compared it only reads, and the write
is the last request of the call. -/
theorem nbdInv_serve {clean : Prop} {w : NbdWork}
    (h_fits : (NbdSection.cmpwrite blockNr nBlocks dataWrite dataCompare).Fits)
    (h : NbdInv blockNr nBlocks dataWrite dataCompare m clean w s)
    (h_l : clean → NbdNoError l) (h_serve : nbdServe l s = some s') :
    NbdInv blockNr nBlocks dataWrite dataCompare m clean w s' := by
  have h_range : (blockNr.toNat + nBlocks.toNat) * nbdBlockSize < 2 ^ 64 := h_fits.1
  obtain ⟨⟨h_work, h_calm, h_paired⟩, h⟩ := h
  -- without a request under way the server has nothing to do
  by_cases h_inside : w.Inside
  swap
  · rw [serve_of_calm (h_calm h_inside)] at h_serve
    cases h_serve
  obtain ⟨h_work', h_consumed, -⟩ := serve_inside h_serve h_work h_inside h_fits
  have h_paired' : s'.Paired := by
    unfold NbdShared.Paired
    rw [h_consumed]
    exact h_paired
  refine ⟨⟨h_work', fun h_out => absurd h_inside h_out, h_paired'⟩, ?_⟩
  cases w with
  | done ok buffer => exact h_inside.elim
  | compared result => exact h_inside.elim
  | invoke i buffer stage =>
    obtain ⟨h_i, h_matches, h_contents, h_clean⟩ := h
    have h_start : stage ≠ .start := by
      rintro rfl
      exact h_inside
    refine ⟨h_i, h_matches, fun h_turn => ?_, fun hc => ?_⟩
    · exact (contents_of_read h_serve h_work (by rw [request_turn h_range h_turn]) h_fits
        h_start).trans
        (h_contents h_turn)
    · cases l with
      | ok => cases h_serve
      | fail moved => cases h_serve
      | serve error cleared =>
        refine stageClean_serve h_serve (h_l hc) h_fits (fun h => absurd h h_start) ?_ (h_clean hc)
        by_cases h_turn : i < nBlocks.toNat
        · rw [request_turn h_range h_turn]
          exact (by decide : nbdCmdRead ≠ nbdCmdTrim)
        · obtain rfl : i = nBlocks.toNat := by omega
          rw [request_last h_range]
          exact (by decide : nbdCmdWrite ≠ nbdCmdTrim)

/-- **How `cmpwrite` can end.** The invariant holds at the beginning, and the
thread and the server keep it in turn. -/
theorem nbdInv_of_alone {clean : Prop} {result : CmpwriteResult}
    (h_fits : (NbdSection.cmpwrite blockNr nBlocks dataWrite dataCompare).Fits)
    (h_compare : dataCompare.length = nBlocks.toNat * nbdBlockSize) (h_calm : s.Calm)
    (h_paired : s.Paired)
    (h : Alone (nbdProgram b) (.cmpwrite blockNr nBlocks dataWrite dataCompare)
      (fun l _ => clean → NbdNoError l) (.invoke 0 (zeros nbdBlockSize) .start) s
      (.compared result) s') :
    NbdInv blockNr nBlocks dataWrite dataCompare s.contents clean (.compared result) s' := by
  refine h.invariant (I := NbdInv blockNr nBlocks dataWrite dataCompare s.contents clean) ?_ ?_ ?_
  · intro l w s₁ w' s₂ h_inv h_l h_act
    exact nbdInv_act h_fits h_compare h_inv h_l h_act
  · intro l w s₁ s₂ h_inv h_l h_serve
    exact nbdInv_serve h_fits h_inv h_l h_serve
  · -- at the start nothing has been compared, and nothing written
    exact ⟨⟨trivial, fun _ => h_calm, h_paired⟩, Nat.zero_le _, matches_zero, fun _ => rfl,
      fun _ => rfl⟩

/-! It does end. -/

variable {sec : NbdSection} {i id : ℕ} {buffer : Bytes}

theorem alone_nbdAct {allowed : NbdLabel → NbdWork → Prop} {w w' w'' : NbdWork} {s'' : NbdShared}
    (h_act : nbdAct l sec w s = some (w', s')) (h_allowed : allowed l w)
    (rest : Alone (nbdProgram b) sec allowed w' s' w'' s'') :
    Alone (nbdProgram b) sec allowed w s w'' s'' :=
  @Alone.act _ _ _ _ _ _ (nbdProgram b) sec allowed l w w' w'' s s' s'' h_allowed h_act rest

/-- The run returns from a call of `invoke_nbd` that has worked. -/
def Completes (b : Build) (sec : NbdSection) (i : ℕ) (w : NbdWork) (s : NbdShared) : Prop :=
  ∃ buffer s', Alone (nbdProgram b) sec (fun l _ => True → NbdNoError l) w s
    (sec.returned i true buffer) s' ∧ s'.conn = some {}

theorem completes_act {w w' : NbdWork} (h_act : nbdAct .ok sec w s = some (w', s'))
    (h : Completes b sec i w' s') : Completes b sec i w s := by
  obtain ⟨buffer, s'', h_rest, hc⟩ := h
  exact ⟨buffer, s'', alone_nbdAct h_act (fun _ => trivial) h_rest, hc⟩

theorem completes_leaving (hc : s.conn = some {}) :
    Completes b sec i (.invoke i buffer .leaving) s := by
  have h_act : nbdAct .ok sec (.invoke i buffer .leaving) s =
      some (sec.returned i true buffer, s) := by
    simp only [nbdAct, hc, Option.isSome_some]
  exact ⟨buffer, s, alone_nbdAct h_act (fun _ => trivial) (.refl _ _), hc⟩

theorem completes_check (hc : s.conn = some {}) :
    Completes b sec i (.invoke i buffer .check) s := by
  have h_act : nbdAct .ok sec (.invoke i buffer .check) s =
      some (.invoke i buffer .leaving, s) := by
    simp only [nbdAct, hc]
  exact completes_act h_act (completes_leaving hc)

/-- The reply has arrived, with the data of a read behind it. What is left is to
take it off the connection and to leave. -/
theorem completes_answered
    (hc : s.conn = some { down := stamp id ((sec.request i).reply 0 s.contents) }) :
    Completes b sec i (.invoke i buffer (.waiting id)) s := by
  set r := sec.request i with hr
  have h_reply := r.length_reply 0 s.contents
  let s₁ : NbdShared := { s with
    conn := some { down := stamp id (r.replyData 0 s.contents) }
    consumed := s.consumed ++ [(id, (stamp id (r.replyHeader 0)).map Prod.snd)] }
  have h_header : nbdAct .ok sec (.invoke i buffer (.waiting id)) s =
      if r.type = nbdCmdRead then some (.invoke i buffer (.replied id), s₁)
      else some (.invoke i buffer .check, s₁) := by
    simp only [nbdAct, hc, ← hr, length_stamp, if_pos h_reply, take_stamp, drop_stamp,
      map_fst_stamp, NbdRequest.take_reply, NbdRequest.drop_reply, NbdRequest.magic_reply,
      NbdRequest.error_reply, ne_eq, not_true_eq_false, if_false, UInt32.toNat_zero]
    rfl
  by_cases hread : r.type = nbdCmdRead
  · -- a read takes its data off the connection as well
    rw [if_pos hread] at h_header
    have h_data : r.replyData 0 s.contents = s.contents.slice r.offset r.length :=
      if_pos ⟨hread, rfl⟩
    have h_conn : s₁.conn =
        some { down := stamp id (s.contents.slice r.offset r.length) } := by rw [← h_data]
    let s₂ : NbdShared := { s₁ with conn := some {} }
    have h_read : nbdAct .ok sec (.invoke i buffer (.replied id)) s₁ =
        some (.invoke i (s.contents.slice r.offset r.length) .check, s₂) := by
      simp only [nbdAct, h_conn, ← hr, length_stamp, Medium.length_slice, le_refl, if_true,
        take_stamp, drop_stamp, map_fst_stamp]
      rw [List.take_of_length_le (Medium.length_slice _ _ _).le,
        List.drop_of_length_le (Medium.length_slice _ _ _).le]
      rfl
    exact completes_act h_header (completes_act h_read (completes_check rfl))
  · -- nothing follows the header
    rw [if_neg hread] at h_header
    have h_data : r.replyData 0 s.contents = [] := if_neg fun h => hread h.1
    have h_conn : s₁.conn = some {} := by
      change some ({ down := stamp id (r.replyData 0 s.contents) } : Wire) = _
      rw [h_data]
      rfl
    exact completes_act h_header (completes_check h_conn)

/-- The request has been sent. The server reads it and answers, and the rest is
what follows on a reply. -/
theorem completes_unread (h_fits : sec.Fits)
    (hc : s.conn = some { up := stamp id ((sec.request i).encode ++ sec.sent i) }) :
    Completes b sec i (.invoke i buffer (.waiting id)) s := by
  have h_len := NbdSection.length_sent h_fits i
  let contents := (sec.request i).applied 0 false (sec.sent i) s.contents
  let s₁ : NbdShared := { s with
    contents := contents
    conn := some { down := stamp id ((sec.request i).reply 0 contents) } }
  -- the server executes the request and answers without an error
  have h_serve : nbdServe (.serve 0 false) s = some s₁ := by
    rw [serve_unread hc (sec.request_valid i) h_len.le, if_neg h_len.not_lt]
  have h_answered : Completes b sec i (.invoke i buffer (.waiting id)) s₁ := completes_answered rfl
  obtain ⟨buffer', s'', h_rest, hc'⟩ := h_answered
  have h_no_error : True → NbdNoError (.serve 0 false) := fun _ => rfl
  exact ⟨buffer', s'', .env h_no_error h_serve h_rest, hc'⟩

/-- **A call of `invoke_nbd` returns** when nothing goes wrong. The run is put
together stage by stage, the last one first. -/
theorem completes_start (h_fits : sec.Fits) (h_calm : s.Calm) :
    Completes b sec i (.invoke i buffer .start) s := by
  -- connected
  have h_connected : ∀ {s : NbdShared}, s.conn = some {} →
      Completes b sec i (.invoke i buffer .start) s := by
    intro s hc
    let s₁ : NbdShared := { s with
      conn := some { up := stamp s.nextId (sec.request i).encode }
      nextId := s.nextId + 1 }
    have h_header : nbdAct .ok sec (.invoke i buffer .start) s =
        some (.invoke i buffer (if (sec.request i).type = nbdCmdWrite then .headerSent s.nextId
          else .waiting s.nextId), s₁) := by
      simp only [nbdAct, hc, List.nil_append]
      rfl
    refine completes_act h_header ?_
    by_cases hw : (sec.request i).type = nbdCmdWrite
    · rw [if_pos hw]
      have h_sent : sec.payload.take (sec.request i).length = sec.sent i := by
        rw [NbdSection.sent, if_pos hw]
      let s₂ : NbdShared := { s₁ with
        conn := some { up := stamp s.nextId ((sec.request i).encode ++ sec.sent i) } }
      have h_payload : nbdAct .ok sec (.invoke i buffer (.headerSent s.nextId)) s₁ =
          some (.invoke i buffer (.waiting s.nextId), s₂) := by
        have hc₁ : s₁.conn = some { up := stamp s.nextId (sec.request i).encode } := rfl
        simp only [nbdAct, hc₁, h_sent, ← stamp_append]
        rfl
      exact completes_act h_payload (completes_unread h_fits rfl)
    · rw [if_neg hw]
      refine completes_unread h_fits ?_
      rw [NbdSection.sent, if_neg hw, List.append_nil]
  rcases h_calm with hc | hc
  · have h_connect : nbdAct .ok sec (.invoke i buffer .start) s =
        some (.invoke i buffer .start, { s with conn := some {} }) := by
      simp only [nbdAct, hc]
    exact completes_act h_connect (h_connected rfl)
  · exact h_connected hc

/-- `cmpwrite` returns, from any turn of its loop. By induction on the blocks
that are left, with a call of `invoke_nbd` for each. -/
theorem exists_nbdEnds
    (h_fits : (NbdSection.cmpwrite blockNr nBlocks dataWrite dataCompare).Fits) {k i : ℕ}
    (h_left : i + k = nBlocks.toNat) (h_calm : s.Calm) :
    ∃ result s', Alone (nbdProgram b) (.cmpwrite blockNr nBlocks dataWrite dataCompare)
      (fun l _ => True → NbdNoError l) (.invoke i buffer .start) s (.compared result) s' := by
  induction k generalizing i buffer s with
  | zero =>
    -- every block has been compared, so the last turn writes
    obtain rfl : i = nBlocks.toNat := h_left
    have h_start : Completes b _ nBlocks.toNat (.invoke nBlocks.toNat buffer .start) s :=
      completes_start h_fits h_calm
    obtain ⟨buffer', s', h_run, -⟩ := h_start
    rw [returned_last] at h_run
    exact ⟨.ok, s', h_run⟩
  | succ k ih =>
    -- a turn that reads a block, and goes on when it matches
    have h_turn : i < nBlocks.toNat := by omega
    have h_start : Completes b _ i (.invoke i buffer .start) s := completes_start h_fits h_calm
    obtain ⟨buffer', s', h_run, hc⟩ := h_start
    rw [returned_turn h_turn] at h_run
    split at h_run
    · have h_next : i + 1 + k = nBlocks.toNat := by omega
      obtain ⟨result, s'', h_rest⟩ := @ih s' buffer' (i + 1) h_next (.inr hc)
      exact ⟨result, s'', h_run.trans h_rest⟩
    · exact ⟨.mismatch, s', h_run⟩

/-- A run with I/O errors or without them. -/
theorem NbdEnds.mono {result : CmpwriteResult} {m' : Medium UInt8}
    (h : NbdEnds b blockNr nBlocks dataWrite dataCompare s True result m') :
    NbdEnds b blockNr nBlocks dataWrite dataCompare s False result m' := by
  obtain ⟨s', h_alone, h_contents⟩ := h
  exact ⟨s', h_alone.mono fun _ _ _ h_clean => absurd h_clean id, h_contents⟩

/-- **The NBD backend** does all or nothing exactly when, behind the bytes that
are written, nothing is to be changed. -/
theorem nbd_allOrNothing_iff (h_calm : s.Calm) (h_paired : s.Paired)
    (h_range : (blockNr.toNat + nBlocks.toNat) * nbdBlockSize < 2 ^ 64)
    (h_write : dataWrite.length = nBlocks.toNat * nbdBlockSize)
    (h_compare : dataCompare.length = nBlocks.toNat * nbdBlockSize) :
    AllOrNothing (NbdEnds b blockNr nBlocks dataWrite dataCompare s) s.contents
        (blockNr.toNat * nbdBlockSize) dataWrite dataCompare ↔
      (s.contents.slice (blockNr.toNat * nbdBlockSize) dataCompare.length = dataCompare →
        dataWrite.drop (NbdSection.nBytes nBlocks) =
          dataCompare.drop (NbdSection.nBytes nBlocks)) := by
  have h_fits : (NbdSection.cmpwrite blockNr nBlocks dataWrite dataCompare).Fits :=
    ⟨h_range, h_write.ge⟩
  have h_k : NbdSection.nBytes nBlocks ≤ dataWrite.length := by
    rw [h_write]
    exact NbdSection.nBytes_le _
  -- what the range holds behind a write
  have h_after : s.contents.slice (blockNr.toNat * nbdBlockSize) dataCompare.length =
      dataCompare → ((s.contents.store (blockNr.toNat * nbdBlockSize)
        (dataWrite.take (NbdSection.nBytes nBlocks))).slice (blockNr.toNat * nbdBlockSize)
          dataWrite.length = dataWrite ↔
        dataWrite.drop (NbdSection.nBytes nBlocks) =
          dataCompare.drop (NbdSection.nBytes nBlocks)) := by
    intro h_equal
    rw [h_compare, ← h_write] at h_equal
    rw [Medium.slice_store_take h_k, h_equal]
    constructor
    · intro h_same
      have h_split :=
        h_same.trans (List.take_append_drop (NbdSection.nBytes nBlocks) dataWrite).symm
      exact (List.append_cancel_left h_split).symm
    · intro h_same
      rw [← h_same, List.take_append_drop]
  have h_exists : ∃ result s', Alone (nbdProgram b)
      (.cmpwrite blockNr nBlocks dataWrite dataCompare) (fun l _ => True → NbdNoError l)
      (.invoke 0 (zeros nbdBlockSize) .start) s (.compared result) s' :=
    exists_nbdEnds h_fits (Nat.zero_add _) h_calm
  obtain ⟨result, s', h_run⟩ := h_exists
  constructor
  · intro h h_equal
    obtain rfl : result = .ok := (h.ok_iff result _ ⟨s', h_run, rfl⟩).mpr h_equal
    have h_inv := (nbdInv_of_alone h_fits h_compare h_calm h_paired h_run).2
    have h_holds := h.ok_holds _ ⟨s', h_run, rfl⟩
    rw [h_inv.2 trivial] at h_holds
    exact (h_after h_equal).mp h_holds
  · intro h_tail
    refine ⟨⟨result, _, s', h_run, rfl⟩, ?_, ?_, ?_⟩
    · rintro result m' ⟨s', h_run, rfl⟩
      have h_inv := (nbdInv_of_alone h_fits h_compare h_calm h_paired h_run).2
      rw [← matches_iff h_compare]
      cases result with
      | ok => exact iff_of_true rfl h_inv.1
      | mismatch => exact iff_of_false (by simp) h_inv.2
      | readError => exact absurd trivial h_inv
      | writeError => exact absurd trivial h_inv
    · rintro m' ⟨s', h_run, rfl⟩
      have h_inv := (nbdInv_of_alone h_fits h_compare h_calm h_paired h_run).2
      have h_equal := (matches_iff h_compare).mp h_inv.1
      rw [h_inv.2 trivial]
      exact (h_after h_equal).mpr (h_tail h_equal)
    · rintro m' ⟨s', h_run, rfl⟩
      exact (nbdInv_of_alone h_fits h_compare h_calm h_paired h_run).2.1

end Nbd

end IscsiTarget
