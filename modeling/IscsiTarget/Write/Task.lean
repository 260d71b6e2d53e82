import IscsiTarget.Write.DataOut

/-!
# The task of a WRITE

Seen from one WRITE, a Data-Out is a step of a small machine: its state is the
R2T session (or none), and each step adds a few events to the trace. `TaskStep`
lists the steps, and `DataOutOutcome.taskStep` says that the handling of a
Data-Out is one of them. What matters about the rest of the connection is only
whether the device is reserved by another session (`locked`) and whether the data
would be taken (`takes`).

The properties of whole transfers are proved about this machine: which blocks are
written, when GOOD is sent, and what has been synced by then.
-/

namespace IscsiTarget

variable {β : Type} (T : Target β)

/-- The backend call a Data-Out makes. -/
def taskCall (session : R2tSession) (q : Pdu) : IoCall :=
  Scsi.writeCall T (session.bufferLba + UInt64.ofNat (q.offset / T.blockSize))
    (UInt32.ofNat (q.data.length / T.blockSize)) q.data

/-- The data of a Data-Out is taken: the backend calls, and the R2T session
after them. With FUA that takes a sync that fails. -/
inductive Take (q : Pdu) (session : R2tSession) : List Event → R2tSession → Prop
  | empty (hd : q.data = []) : Take q session [] session
  | written (hd : q.data ≠ []) (halign : q.Aligned T.blockSize) (hfua : session.fua = false) :
    Take q session [.io (taskCall T session q) true]
      (session.advance (UInt32.ofNat q.data.length))
  | unsynced (hd : q.data ≠ []) (halign : q.Aligned T.blockSize) (hfua : session.fua = true) :
    Take q session [.io (taskCall T session q) true, .io .sync false]
      (session.advance (UInt32.ofNat q.data.length))

/-- The steps of a task on a Data-Out: the events, and the R2T session after
them. Nothing of the rest of the connection occurs here, so that a task can be
followed through what other tasks do in between. -/
inductive TaskStep (locked takes : Prop) (q : Pdu) (session : R2tSession) :
    List Event → Option R2tSession → Prop
  | refused (hbad : q.data = [] ∧ q.bhs.getF = false ∨ q.data ≠ [] ∧ ¬ q.Aligned T.blockSize) :
    TaskStep locked takes q session [.received q] (some session)
  /-- The device is reserved by another session. -/
  | reserved (hd : q.data ≠ []) (halign : q.Aligned T.blockSize) (hl : locked) (ok : Bool) :
    TaskStep locked takes q session [.received q, .sent (ioErrorPdu T q) ok] (some session)
  | writeFailed (hd : q.data ≠ []) (halign : q.Aligned T.blockSize) (hl : ¬ locked) (ok : Bool) :
    TaskStep locked takes q session
      [.received q, .io (taskCall T session q) false, .sent (ioErrorPdu T q) ok] (some session)
  /-- The sync succeeds, which the code takes for a failure. -/
  | synced (hd : q.data ≠ []) (halign : q.Aligned T.blockSize) (hl : ¬ locked)
    (hfua : session.fua = true) (ok : Bool) :
    TaskStep locked takes q session
      [.received q, .io (taskCall T session q) true, .io .sync true, .sent (ioErrorPdu T q) ok]
      (some session)
  /-- The data is taken, more is to come. -/
  | taken {evs : List Event} {session' : R2tSession} (ht : takes) (hd : q.data ≠ [])
    (hl : ¬ locked) (htake : Take T q session evs session') (hF : q.bhs.getF = false) :
    TaskStep locked takes q session (.received q :: evs) (some session')
  /-- The data is taken, and nothing is missing. -/
  | ended {evs : List Event} {session' : R2tSession} (ht : takes)
    (hl : q.data ≠ [] → ¬ locked) (htake : Take T q session evs session') (hF : q.bhs.getF = true)
    (hleft : session'.bytesLeft = 0) (ok : Bool) :
    TaskStep locked takes q session (.received q :: (evs ++ [.sent (goodPdu T session') ok])) none
  /-- The data is taken, and the rest is asked for. -/
  | continued {evs : List Event} {session' : R2tSession} (ht : takes)
    (hl : q.data ≠ [] → ¬ locked) (htake : Take T q session evs session') (hF : q.bhs.getF = true)
    (hleft : session'.bytesLeft ≠ 0) (asked : List Event)
    (hasked : ∀ e ∈ asked, ∃ ok, e = .sent (restPdu T session' q.tag) ok) (ok : Bool) :
    TaskStep locked takes q session (.received q :: (evs ++ .sent (goodPdu T session') ok :: asked))
      (some session')

variable {T}

/-- Data that is taken moves the counters at most. -/
theorem Take.eq_or {q : Pdu} {session session' : R2tSession} {evs : List Event}
    (h : Take T q session evs session') :
    session' = session ∨ session' = session.advance (UInt32.ofNat q.data.length) := by
  cases h with
  | empty hd => exact .inl rfl
  | written hd halign hfua => exact .inr rfl
  | unsynced hd halign hfua => exact .inr rfl

/-- The counter of an R2T session and the bytes of the Data-Out, after it is
taken. The counter has 32 bits, and so have the sums. -/
theorem Take.bytesLeft {d : Pdu} {session session' : R2tSession} {evs : List Event}
    (h : Take T d session evs session') :
    (session'.bytesLeft.toNat + d.data.length) % 2 ^ 32 = session.bytesLeft.toNat % 2 ^ 32 := by
  have h_data := d.data_lt
  have h_n : (UInt32.ofNat d.data.length).toNat = d.data.length := toNat_ofNat_32 (by omega)
  -- the counter goes down in 32 bits, and may wrap around
  have h_adv : ((session.advance (UInt32.ofNat d.data.length)).bytesLeft.toNat +
      d.data.length) % 2 ^ 32 = session.bytesLeft.toNat % 2 ^ 32 := by
    change ((session.bytesLeft - UInt32.ofNat d.data.length).toNat + _) % _ = _
    rw [UInt32.toNat_sub, h_n]
    omega
  cases h with
  | empty hd => rw [hd, List.length_nil, Nat.add_zero]
  | written hd halign hfua => exact h_adv
  | unsynced hd halign hfua => exact h_adv

/-- **The R2T session after a step** is the one before, with its counters moved
on perhaps, or none. -/
theorem TaskStep.eq_or {locked takes : Prop} {q : Pdu} {session rs : R2tSession} {evs : List Event}
    (h : TaskStep T locked takes q session evs (some rs)) :
    rs = session ∨ rs = session.advance (UInt32.ofNat q.data.length) := by
  cases h with
  | refused hbad => exact .inl rfl
  | reserved hd halign hl ok => exact .inl rfl
  | writeFailed hd halign hl ok => exact .inl rfl
  | synced hd halign hl hfua ok => exact .inl rfl
  | taken ht hd hl htake hF => exact htake.eq_or
  | continued ht hl htake hF hleft asked hasked ok => exact htake.eq_or

/-! ### A Data-Out is a step of its task -/

variable {c c' : Conn β} {q : Pdu} {session session' : R2tSession}

/-- Data that is written. -/
theorem does_written (hsame : session.isWriteSame = false)
    (hok : (writtenDataOut T c q session).1 = .ok) :
    c.scsi.lockingStatus T ≠ .lockedOther ∧
      c.scsi.Does (writtenDataOut T c q session).2
        [.received q, .io (taskCall T session q) true] := by
  rw [writtenDataOut_of_write hsame] at hok ⊢
  exact ⟨Scsi.unlocked_of_write_ok (s := (c.receive q).scsi) hok,
    (Scsi.does_note (.received q)).trans (Scsi.write_ok hok).1⟩

/-- Data that is not written: it is stopped by a reservation, or the backend
call fails. -/
theorem does_not_written (hsame : session.isWriteSame = false)
    (hok : (writtenDataOut T c q session).1 ≠ .ok) :
    c.scsi.lockingStatus T = .lockedOther ∧
        c.scsi.Does (writtenDataOut T c q session).2 [.received q] ∨
      c.scsi.lockingStatus T ≠ .lockedOther ∧
        c.scsi.Does (writtenDataOut T c q session).2
          [.received q, .io (taskCall T session q) false] := by
  rw [writtenDataOut_of_write hsame] at hok ⊢
  -- a reserved device is not written to at all
  by_cases hl : c.scsi.lockingStatus T = .lockedOther
  · refine .inl ⟨hl, ?_⟩
    rw [Scsi.write_of_locked (s := (c.receive q).scsi) hl]
    exact Scsi.does_note (.received q)
  · exact .inr ⟨hl, (Scsi.does_note (.received q)).trans
      (Scsi.does_write_of_ne_ok (s := (c.receive q).scsi) hl hok)⟩

/-- **Data that is taken.** It is written, and synced when the command has FUA;
the session has counted it then. -/
theorem Delivered.take (h : Delivered T c q session session' c')
    (hsame : session.isWriteSame = false) :
    ∃ evs, Take T q session evs session' ∧ c.scsi.Does c'.scsi (.received q :: evs) ∧
      (q.data ≠ [] → c.scsi.lockingStatus T ≠ .lockedOther) := by
  cases h with
  | empty hd => exact ⟨[], .empty hd, Scsi.does_note (.received q), fun hd' => absurd hd hd'⟩
  | data hd halign hwritten hsync =>
    obtain ⟨h_unlocked, h_does⟩ := does_written hsame hwritten
    cases hfua : session.fua with
    | false => exact ⟨_, .written hd halign hfua, h_does, fun _ => h_unlocked⟩
    | true =>
      have h_lock : (writtenDataOut T c q session).2.lockingStatus T ≠ .lockedOther := by
        rw [h_does.lockingStatus]
        exact h_unlocked
      have h_sync := Scsi.does_sync_of_unlocked h_lock
      -- the session goes on, so the sync has not come out as false: it has failed
      have h_false := hsync hfua
      rw [Scsi.eqFalse_sync_of_unlocked h_lock] at h_false
      rw [h_false] at h_sync
      exact ⟨_, .unsynced hd halign hfua, h_does.trans h_sync, fun _ => h_unlocked⟩

/-- The end of a burst adds the GOOD response, and the R2T if something is
missing. Neither of them is a backend call. -/
theorem does_closeBatch (c : Conn β) (session : R2tSession) (transferTag : UInt32) :
    ∃ ok asked, c.scsi.Does (closeBatch T c session transferTag).scsi
        (.sent (goodPdu T session) ok :: asked) ∧
      (session.bytesLeft = 0 → asked = []) ∧
      ∀ e ∈ asked, ∃ ok, e = .sent (restPdu T session transferTag) ok := by
  unfold closeBatch
  split
  · exact ⟨_, [], Scsi.does_note _, fun _ => rfl, by simp⟩
  · -- something is missing: an R2T is sent too, if the response was
    next hleft =>
    split
    · refine ⟨_, _, (Scsi.does_note _).trans (Scsi.does_note _), fun h => absurd h hleft, ?_⟩
      intro e he
      obtain rfl := List.mem_singleton.mp he
      exact ⟨_, rfl⟩
    · exact ⟨_, [], Scsi.does_note _, fun _ => rfl, by simp⟩

variable (T) in
/-- The data of a Data-Out would be taken. -/
def Takes (c : Conn β) (q : Pdu) (session : R2tSession) : Prop :=
  ∃ session' c', Delivered T c q session session' c'

/-- **A Data-Out is a step of its task.** By cases on how its handling ends,
each of which is one of the steps. -/
theorem DataOutOutcome.taskStep (h : DataOutOutcome T c q c')
    (hses : c.ses.getR2tSesion q.tag = some session) (hsame : session.isWriteSame = false) :
    ∃ evs, c.scsi.Does c'.scsi evs ∧
      TaskStep T (c.scsi.lockingStatus T = .lockedOther) (Takes T c q session) q session evs
        (c'.ses.getR2tSesion q.tag) := by
  cases h with
  | unknown hnone => exact absurd (hses.symm.trans hnone) (by simp)
  | refused hses' hbad =>
    refine ⟨_, Scsi.does_note (.received q), ?_⟩
    rw [Conn.receive_ses, hses]
    exact .refused hbad
  | writeFailed hses' hd halign hwritten =>
    obtain rfl := Option.some.inj (hses.symm.trans hses')
    rw [Conn.emit_ses, hses]
    rcases does_not_written hsame hwritten with ⟨hl, h_does⟩ | ⟨hl, h_does⟩
    · exact ⟨_, h_does.trans (Scsi.does_note _), .reserved hd halign hl _⟩
    · exact ⟨_, h_does.trans (Scsi.does_note _), .writeFailed hd halign hl _⟩
  | syncFalse hses' hd halign hwritten hfua hsync =>
    obtain rfl := Option.some.inj (hses.symm.trans hses')
    obtain ⟨hl, h_does⟩ := does_written hsame hwritten
    have h_lock : (writtenDataOut T c q session).2.lockingStatus T ≠ .lockedOther := by
      rw [h_does.lockingStatus]
      exact hl
    have h_sync := Scsi.does_sync_of_unlocked h_lock
    rw [Scsi.eqFalse_sync_of_unlocked h_lock] at hsync
    rw [hsync] at h_sync
    rw [Conn.emit_ses, hses]
    exact ⟨_, (h_does.trans h_sync).trans (Scsi.does_note _), .synced hd halign hl hfua _⟩
  | delivered hses' hd hdel hF =>
    obtain rfl := Option.some.inj (hses.symm.trans hses')
    obtain ⟨evs, h_take, h_does, h_unlocked⟩ := hdel.take hsame
    rw [hdel.getR2tSesion hses]
    exact ⟨_, h_does, .taken ⟨_, _, hdel⟩ hd (h_unlocked hd) h_take hF⟩
  | @finished _ session' c₁ hses' hdel hF =>
    obtain rfl := Option.some.inj (hses.symm.trans hses')
    obtain ⟨evs, h_take, h_does, h_unlocked⟩ := hdel.take hsame
    obtain ⟨ok, asked, h_close, h_none, h_asked⟩ := does_closeBatch (T := T) c₁ session' q.tag
    have h_all := h_does.trans h_close
    by_cases hleft : session'.bytesLeft = 0
    · rw [getR2tSesion_closeBatch_of_zero _ _ hleft]
      rw [h_none hleft] at h_all
      exact ⟨_, h_all, .ended ⟨_, _, hdel⟩ h_unlocked h_take hF hleft ok⟩
    · rw [closeBatch_ses_of_ne_zero _ _ hleft, hdel.getR2tSesion hses]
      exact ⟨_, h_all, .continued ⟨_, _, hdel⟩ h_unlocked h_take hF hleft asked h_asked ok⟩

end IscsiTarget
