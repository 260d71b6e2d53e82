import IscsiTarget.Write.Command

/-!
# The PDUs of an answer

The trace has everything that happens; here only the PDUs count that are handed to `send`.
`Scsi.Sends` names the ones between two states, in their order. `AnswerTo` is what all the
answers of the target have in common: every PDU carries the sequence numbers that belong to one
header, and at most one of them bears status.

The functions of `scsi` send nothing. The lemmas for them are at the end of the file.
-/

namespace IscsiTarget

/-! ### PDUs -/

namespace PduOut

/-- The sequence numbers of a PDU. The fields of a reject stay zero, so that it
counts for none of the three. -/
def numbers : PduOut → Option Numbers
  | .scsiResponse p => some p.numbers
  | .dataIn p => some p.numbers
  | .r2t p => some p.numbers
  | .nopIn p => some p.numbers
  | .loginReply p => some p.numbers
  | .textReply p => some p.numbers
  | .logoutReply p => some p.numbers
  | .taskmanReply p => some p.numbers
  | .reject _ => none

/-- The PDU bears status: it takes up a StatSN. -/
def bearsStatus : PduOut → Bool
  | .scsiResponse _ | .nopIn _ | .textReply _ | .logoutReply _ | .taskmanReply _ => true
  | .dataIn p => p.statusBit
  | .r2t _ | .loginReply _ | .reject _ => false

/-- The PDU is an R2T. -/
def isR2t : PduOut → Bool
  | .r2t _ => true
  | _ => false

/-- The Data-In, when the PDU is one. -/
def asDataIn : PduOut → Option DataInPdu
  | .dataIn d => some d
  | _ => none

end PduOut

/-- The PDU that is sent. -/
def Event.pdu : Event → Option PduOut
  | .sent p _ => some p
  | _ => none

/-- The PDUs that are sent. -/
def sentPdus (es : List Event) : List PduOut := es.filterMap Event.pdu

@[simp] theorem sentPdus_nil : sentPdus [] = [] := rfl

@[simp] theorem sentPdus_append (es fs : List Event) :
    sentPdus (es ++ fs) = sentPdus es ++ sentPdus fs := List.filterMap_append

theorem sentPdus_eq_nil {es : List Event} (h : ∀ e ∈ es, e.pdu = none) : sentPdus es = [] := by
  rw [sentPdus, List.filterMap_eq_nil_iff]
  exact h

variable {β : Type} {T : Target β}

/-! ### Between two states -/

namespace Scsi

/-- From `s` to `s'` the PDUs `ps` are sent. -/
def Sends (s s' : Scsi β) (ps : List PduOut) : Prop :=
  ∃ evs, s'.history = s.history ++ evs ∧ sentPdus evs = ps

namespace Sends

variable {s s₁ s₂ s' : Scsi β} {ps rs : List PduOut}

theorem refl (s : Scsi β) : s.Sends s [] := ⟨[], (List.append_nil _).symm, rfl⟩

theorem of_history (h : s'.history = s.history) : s.Sends s' [] :=
  ⟨[], by rw [h, List.append_nil], rfl⟩

theorem trans (h₁ : s.Sends s₁ ps) (h₂ : s₁.Sends s₂ rs) : s.Sends s₂ (ps ++ rs) := by
  obtain ⟨es, h_es, rfl⟩ := h₁
  obtain ⟨fs, h_fs, rfl⟩ := h₂
  exact ⟨es ++ fs, by rw [h_fs, h_es, List.append_assoc], sentPdus_append es fs⟩

/-- Sending nothing first. -/
theorem after (h₁ : s.Sends s₁ []) (h₂ : s₁.Sends s₂ rs) : s.Sends s₂ rs := h₁.trans h₂

/-- Two states determine the PDUs between them. -/
theorem unique (h₁ : s.Sends s' ps) (h₂ : s.Sends s' rs) : ps = rs := by
  obtain ⟨es, h_es, rfl⟩ := h₁
  obtain ⟨fs, h_fs, rfl⟩ := h₂
  rw [List.append_cancel_left (h_es.symm.trans h_fs)]

end Sends

theorem Does.sends {s s' : Scsi β} {evs : List Event} (h : s.Does s' evs) :
    s.Sends s' (sentPdus evs) := ⟨evs, h.history, rfl⟩

/-- Moving data sends nothing. -/
theorem Transfers.sends {s s' : Scsi β} {rc : RwResult} {evs : List Event}
    (h : Transfers T s rc s' evs) : s.Sends s' [] := by
  refine ⟨evs, h.does.history, sentPdus_eq_nil fun e he => ?_⟩
  have h_transfer := h.transfer e he
  cases e with
  | received q => rfl
  | io call ok => rfl
  | sent p ok => exact absurd h_transfer (by simp [Event.IsTransfer])

end Scsi

namespace Conn

variable (c : Conn β)

theorem sends_receive (q : Pdu) : c.scsi.Sends (c.receive q).scsi [] := ⟨_, rfl, rfl⟩

theorem sends_emit (p : PduOut) : c.scsi.Sends (c.emit T p).scsi [p] := ⟨_, rfl, rfl⟩

theorem sends_answer (p : Option PduOut) : c.scsi.Sends (c.answer T p).scsi p.toList := by
  cases p with
  | none => exact .refl _
  | some p => exact c.sends_emit p

end Conn

/-! ### Answers -/

variable (T) in
/-- The PDUs `ps` answer the PDU with the header `h`. -/
structure AnswerTo (h : Header) (ps : List PduOut) : Prop where
  numbers : ∀ p ∈ ps, p.numbers = some (numbersFor T h)
  one : ps.countP PduOut.bearsStatus ≤ 1

namespace AnswerTo

variable {h : Header} {p : PduOut} {ps rs : List PduOut}

theorem nil (h : Header) : AnswerTo T h [] := ⟨by simp, by simp⟩

theorem single (hp : p.numbers = some (numbersFor T h)) : AnswerTo T h [p] :=
  ⟨by simp [hp], (List.countP_le_length).trans_eq rfl⟩

theorem of_sublist (h_ps : AnswerTo T h ps) (h_sub : rs.Sublist ps) : AnswerTo T h rs :=
  ⟨fun p hp => h_ps.numbers p (h_sub.subset hp), h_sub.countP_le.trans h_ps.one⟩

end AnswerTo

/-! ### Sending PDUs -/

/-- Every send succeeds. -/
def Target.Connected (T : Target β) : Prop := ∀ history, T.send history = true

/-- After a send that failed nothing more is sent. -/
theorem emitPdus_connection (ps : List PduOut) (s : Scsi β) :
    emitPdus T ps .connection s = (.connection, s) := by
  induction ps with
  | nil => rfl
  | cons p ps ih => exact (if_neg (by simp)).trans ih

/-- **The blobs of a PDU object**: all of them are sent, or the first few. The
first send that fails is the last one that is tried, and its PDU counts as sent. -/
theorem sends_emitPdus (ps : List PduOut) (s : Scsi β) :
    ∃ sent, s.Sends (emitPdus T ps .ok s).2 sent ∧ sent <+: ps ∧
      (sent = ps ∧ (emitPdus T ps .ok s).1 = .ok ∨
        sent ≠ [] ∧ (emitPdus T ps .ok s).1 = .connection ∧ ¬ T.Connected) := by
  induction ps generalizing s with
  | nil => exact ⟨[], .refl s, List.prefix_refl _, .inl ⟨rfl, rfl⟩⟩
  | cons p ps ih =>
    have h_first : s.Sends (s.note (.sent p (T.send s.history))) [p] := ⟨_, rfl, rfl⟩
    cases h_send : T.send s.history with
    | true =>
      have h_eq : emitPdus T (p :: ps) .ok s = emitPdus T ps .ok (s.note (.sent p true)) := by
        rw [emitPdus, if_pos rfl]
        simp only [sendPdu, h_send]
        rfl
      rw [h_send] at h_first
      obtain ⟨sent, h_sent, h_prefix, h_rest⟩ := ih (s.note (.sent p true))
      rw [h_eq]
      refine ⟨p :: sent, h_first.trans h_sent, List.cons_prefix_cons.mpr ⟨rfl, h_prefix⟩, ?_⟩
      rcases h_rest with ⟨rfl, h_ok⟩ | ⟨-, h_conn⟩
      · exact .inl ⟨rfl, h_ok⟩
      · exact .inr ⟨List.cons_ne_nil p sent, h_conn⟩
    | false =>
      have h_eq : emitPdus T (p :: ps) .ok s = (.connection, s.note (.sent p false)) := by
        rw [emitPdus, if_pos rfl]
        simp only [sendPdu, h_send]
        exact emitPdus_connection ps _
      rw [h_send] at h_first
      rw [h_eq]
      exact ⟨[p], h_first, by simp, .inr ⟨List.cons_ne_nil p [], rfl,
        fun h => absurd ((h s.history).symm.trans h_send) (by simp)⟩⟩

/-! ### The functions of `scsi` send nothing -/

namespace Scsi

variable {s : Scsi β}

theorem sends_sync (s : Scsi β) : s.Sends (s.sync T).2 [] := by
  by_cases hl : s.lockingStatus T = .lockedOther
  · rw [sync_of_locked hl]
    exact .refl s
  · rw [sync_of_unlocked hl]
    exact ⟨_, rfl, rfl⟩

theorem sends_syncedIf (fua : Bool) (s : Scsi β) : s.Sends (syncedIf T fua s) [] := by
  unfold syncedIf
  split
  · exact sends_sync s
  · exact .refl s

theorem sends_trim (lba : UInt64) (n : UInt32) : s.Sends (s.trim T lba n).2 [] :=
  (writes_trim s lba n).elim fun _ h => h.sends

theorem sends_storeImmediate (lba : UInt64) (n : UInt32) (data : Bytes) :
    s.Sends (s.storeImmediate T lba n data).2 [] :=
  (transfers_storeImmediate s lba n data).elim fun _ h => h.sends

theorem sends_reserve (s : Scsi β) : s.Sends (s.reserve T).2 [] := by
  unfold reserve reserveDevice
  split
  · cases s.lockedBy with
    | none => exact .of_history rfl
    | some id => by_cases h : id = T.thread <;> (simp only [h]; exact .of_history rfl)
  · exact .refl s

theorem sends_unlockDevice (s : Scsi β) : s.Sends (s.unlockDevice T).2 [] := by
  unfold unlockDevice
  split
  · cases s.lockedBy with
    | none => exact .refl s
    | some id => by_cases h : id = T.thread <;> (simp only [h]; exact .of_history rfl)
  · exact .refl s

theorem sends_release (s : Scsi β) : s.Sends (s.release T).2 [] := by
  unfold release
  split
  · exact sends_unlockDevice s
  · exact .refl s

theorem sends_cmpwrite (lba : UInt64) (n : UInt32) (dataWrite dataCompare : Bytes) :
    s.Sends (s.cmpwrite T lba n dataWrite dataCompare).2 [] := by
  unfold cmpwrite
  split
  · exact ⟨_, rfl, rfl⟩
  · exact .refl s

/-- UNMAP goes through its descriptors with trims. -/
theorem sends_unmapDescriptor (u : UnmapState β) (lba : UInt64) (n : UInt32) :
    u.scsi.Sends (unmapDescriptor T u lba n).1.scsi [] := by
  unfold unmapDescriptor
  split
  · exact .refl _
  · split
    · exact .refl _
    · split
      · exact sends_trim lba n
      · exact .refl _

theorem sends_unmapLoop (turns : ℕ) (u : UnmapState β) (data : Bytes) {u' : UnmapState β}
    (h : unmapLoop T turns u data = .ok u') : u.scsi.Sends u'.scsi [] := by
  induction turns, u, data using unmapLoop.induct T with
  | case1 turns u =>
    rw [unmapLoop] at h
    rw [← Except.ok.inj h]
    exact .refl _
  | case2 turns u d0 d1 d2 d3 d4 d5 d6 d7 n0 n1 n2 n3 rest u₁ h_one ih =>
    rw [unmapLoop, h_one] at h
    have h_d := sends_unmapDescriptor (T := T) u (getUint64 d0 d1 d2 d3 d4 d5 d6 d7)
      (getUint32 n0 n1 n2 n3)
    rw [h_one] at h_d
    exact h_d.after (ih h)
  | case3 turns u d0 d1 d2 d3 d4 d5 d6 d7 n0 n1 n2 n3 rest u₁ h_one =>
    rw [unmapLoop, h_one] at h
    have h_d := sends_unmapDescriptor (T := T) u (getUint64 d0 d1 d2 d3 d4 d5 d6 d7)
      (getUint32 n0 n1 n2 n3)
    rw [h_one] at h_d
    rw [← Except.ok.inj h]
    exact h_d
  | case4 turns u data h_nil h_cons =>
    rw [unmapLoop] at h
    · exact nomatch h
    · exact h_nil
    · exact h_cons

theorem sends_writeSameBlock (isUnmap : Bool) (data : Bytes) (lba : UInt64) :
    s.Sends (s.writeSameBlock T isUnmap data lba).2 [] := by
  unfold writeSameBlock
  split
  · exact sends_trim lba 1
  · exact (writes_write s lba 1 data).elim fun _ h => h.sends

theorem sends_writeSameToEnd (isUnmap : Bool) (data : Bytes) (fuel : ℕ) (lba : UInt64)
    (s : Scsi β) {x : RwResult × Scsi β}
    (h : writeSameToEnd T isUnmap data fuel lba s = .ok x) : s.Sends x.2 [] := by
  induction fuel generalizing lba s with
  | zero => exact nomatch h
  | succ fuel ih =>
    have h_block := sends_writeSameBlock (T := T) (s := s) isUnmap data lba
    unfold writeSameToEnd at h
    split at h
    · rcases h_eq : s.writeSameBlock T isUnmap data lba with ⟨rc, s'⟩
      rw [h_eq] at h h_block
      cases rc with
      | ok => exact h_block.after (ih _ _ h)
      | _ =>
        rw [← Except.ok.inj h]
        exact h_block
    · rw [← Except.ok.inj h]
      exact .refl s

end Scsi

end IscsiTarget
