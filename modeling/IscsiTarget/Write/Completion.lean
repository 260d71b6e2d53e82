import IscsiTarget.Lib.Run
import IscsiTarget.Lib.Trace
import IscsiTarget.Model.Sample
import IscsiTarget.Write.Task

/-!
# When a WRITE is answered with GOOD

`Honest` is what an initiator takes a GOOD response for: it comes once, and when
it comes every byte of the task has been received and is stored. The code decides
by other means. A command that comes with more or less data than it announces is
answered at once (`CommandInOrder` says for which of them that is honest), and a
Data-Out with the F bit is answered whatever is missing; when nothing is missing is
decided by counting bytes.

So the answers are honest in a run whose bursts are closed in order
(`ClosedInOrder`): nothing is missing by the count, and the Data-Outs that were
taken neither overlap nor leave the buffer. The proof is the invariant
`Transferring`, with the extents taken so far as ghost state, and
`Extent.covers_of_disjoint`: what is counted without overlap is covered.
-/

namespace IscsiTarget

variable {β : Type} (T : Target β)

/-! ### Honest answers -/

/-- The event is a SCSI Response with status 0 for the task. -/
def IsGood (q : Pdu) : Event → Prop
  | .sent (.scsiResponse p) _ => p.status = 0 ∧ p.itasktag = q.bhs.getItasktag
  | _ => False

instance (q : Pdu) : DecidablePred (IsGood q)
  | .sent (.scsiResponse p) _ =>
    inferInstanceAs (Decidable (p.status = 0 ∧ p.itasktag = q.bhs.getItasktag))
  | .sent (.dataIn _) _ | .sent (.r2t _) _ | .sent (.nopIn _) _ | .sent (.loginReply _) _
  | .sent (.textReply _) _ | .sent (.logoutReply _) _ | .sent (.taskmanReply _) _
  | .sent (.reject _) _ | .received _ | .io _ _ => isFalse id

/-- In the trace the byte `v` has been received for position `i` of the buffer. -/
def ReceivedByte (q : Pdu) (evs : List Event) (i : ℕ) (v : UInt8) : Prop :=
  q.data[i]? = some v ∨
    ∃ d, .received d ∈ evs ∧ d.bhs.getOpcode = .scsiDataOut ∧ d.offset ≤ i ∧
      d.data[i - d.offset]? = some v

/-- In the trace a byte for position `i` of the buffer has been received and
stored. -/
def Arrived (q : Pdu) (evs : List Event) (i : ℕ) : Prop :=
  ∃ v, ReceivedByte q evs i v ∧
    ∃ e ∈ evs, e.Stores T.blockSize (q.lba.toNat * T.blockSize + i) v

/-- The number of bytes that belong to the task. -/
def taskBytes (q : Pdu) : ℕ := min (nBytesOf T q) q.bhs.getExpDatLen.toNat

/-- Every GOOD response of the task is the only one, and comes after all its
bytes. -/
def Honest (q : Pdu) (evs : List Event) : Prop :=
  ∀ pre e post, evs = pre ++ e :: post → IsGood q e →
    (∀ e' ∈ post, ¬ IsGood q e') ∧ ∀ i, i < taskBytes T q → Arrived T q pre i

/-! ### Conditions -/

/-- The part of the buffer that Data-Outs are for. -/
def remaining (q : Pdu) (p : ℕ) : Prop :=
  immediateBlocks T q * T.blockSize ≤ p ∧ p < nBytesOf T q

/-- A command that is answered with GOOD at once has come with its bytes. -/
def CommandInOrder (c : Conn β) (q : Pdu) : Prop :=
  writeCheck T c q = none → (storedImmediate T c q).1 = .ok →
    (Complete T q ∨ nBytesOf T q ≠ q.bhs.getExpDatLen.toNat) → taskBytes T q ≤ q.data.length

/-- The connection, and the extents of the Data-Outs taken so far. -/
abbrev Watched (β : Type) := Conn β × List Extent

/-- A Data-Out that is taken changes or removes its R2T session. -/
def watch (c : Conn β) (d : Pdu) (c' : Conn β) (es : List Extent) : List Extent :=
  if c'.ses.getR2tSesion d.tag = c.ses.getR2tSesion d.tag then es else es ++ [d.extent]

/-- A Data-Out that is taken and closes a burst: the R2T session is the
command's own (`fresh`), by the count nothing is missing, and the Data-Outs
neither overlap nor leave the buffer. -/
def ClosedInOrder (fresh : Prop) (q : Pdu) (s : Watched β) (d : Pdu) : Prop :=
  ∀ session, s.1.ses.getR2tSesion d.tag = some session → d.bhs.getF = true →
    Takes T s.1 d session →
      fresh ∧ session.bytesLeft.toNat = d.data.length ∧
        (Extent.spread (s.2 ++ [d.extent])).Nodup ∧
        ∀ p ∈ Extent.spread (s.2 ++ [d.extent]), remaining T q p

variable {T}

/-! ### Reading traces -/

theorem ReceivedByte.mono {q : Pdu} {es fs : List Event} {i : ℕ} {v : UInt8}
    (h : ReceivedByte q es i v) (hsub : es ⊆ fs) : ReceivedByte q fs i v := by
  rcases h with h | ⟨d, hd, h⟩
  · exact .inl h
  · exact .inr ⟨d, hsub hd, h⟩

theorem Arrived.mono {q : Pdu} {es fs : List Event} {i : ℕ} (h : Arrived T q es i)
    (hsub : es ⊆ fs) : Arrived T q fs i := by
  obtain ⟨v, h_rec, e, he, h_st⟩ := h
  exact ⟨v, h_rec.mono hsub, e, hsub he, h_st⟩

/-- A trace without GOOD is honest. -/
theorem honest_of_none {q : Pdu} {evs : List Event} (h : ∀ e ∈ evs, ¬ IsGood q e) :
    Honest T q evs := by
  rintro pre e post rfl hg
  exact absurd hg (h e (by simp))

/-- More events without GOOD. -/
theorem Honest.append {q : Pdu} {es fs : List Event} (h : Honest T q es)
    (hfs : ∀ e ∈ fs, ¬ IsGood q e) : Honest T q (es ++ fs) := by
  intro pre e post heq hg
  rcases Trace.append_eq_iff.mp heq with ⟨mid, rfl, rfl⟩ | ⟨mid, rfl, rfl⟩
  · obtain ⟨h_once, h_all⟩ := h pre e mid rfl hg
    exact ⟨List.forall_mem_append.mpr ⟨h_once, hfs⟩, h_all⟩
  · -- the GOOD would be one of the new events
    exact absurd hg (hfs e (by simp))

/-- An honest trace has one GOOD response at most. -/
theorem Honest.length_filter_le {q : Pdu} {evs : List Event} (h : Honest T q evs) :
    (evs.filter (IsGood q ·)).length ≤ 1 := by
  cases hf : evs.filter (IsGood q ·) with
  | nil => simp
  | cons e es =>
    obtain ⟨pre, post, rfl, -, hg, rfl⟩ := List.filter_eq_cons_iff.mp hf
    have h_post := (h pre e post rfl (by simpa using hg)).1
    rw [List.filter_eq_nil_iff.mpr (by simpa using h_post)]
    simp

/-- The first GOOD, when all the bytes are there. -/
theorem honest_of_last {q : Pdu} {evs : List Event} {e : Event}
    (hnone : ∀ e ∈ evs, ¬ IsGood q e) (hall : ∀ i, i < taskBytes T q → Arrived T q evs i) :
    Honest T q (evs ++ [e]) := by
  intro pre e' post heq hg
  rcases Trace.append_singleton_eq_iff.mp heq with ⟨mid, rfl, -⟩ | ⟨rfl, -, rfl⟩
  · exact absurd hg (hnone e' (by simp))
  · exact ⟨by simp, hall⟩

/-! ### Events that are not GOOD -/

theorem not_isGood_received (q d : Pdu) : ¬ IsGood q (.received d) := id

theorem not_isGood_io (q : Pdu) (call : IoCall) (ok : Bool) : ¬ IsGood q (.io call ok) := id

theorem not_isGood_ioError (q d : Pdu) (ok : Bool) : ¬ IsGood q (.sent (ioErrorPdu T d) ok) := by
  simp [IsGood, ioErrorPdu, ScsiResponsePdu.set, errorReadError, fixedSense]

/-- A SCSI Response with sense data is not GOOD. -/
theorem not_isGood_sense (q : Pdu) {sense : Bytes} (hs : sense ≠ [])
    (residual : Option (Residual × UInt32)) (ok : Bool) :
    ¬ IsGood q (.sent (statusPdu T q sense residual) ok) := by
  simp only [IsGood, statusPdu, ScsiResponsePdu.set, if_neg hs]
  split <;> simp

theorem not_isGood_take {q d : Pdu} {session session' : R2tSession} {evs : List Event}
    (h : Take T d session evs session') : ∀ e ∈ evs, ¬ IsGood q e := by
  cases h with
  | empty hd => simp
  | written hd halign hfua => simp [not_isGood_io]
  | unsynced hd halign hfua => simp [not_isGood_io]

/-! ### The bytes of a Data-Out -/

/-- **A Data-Out that is written has arrived**, as far as it belongs to the
task. A byte of its data lies at the place its offset stands for. -/
theorem arrived_of_taskCall {q d : Pdu} {session : R2tSession} {evs : List Event}
    (hend : q.lba.toNat + q.nBlocks.toNat < 2 ^ 64) (hop : d.bhs.getOpcode = .scsiDataOut)
    (hlba : session.bufferLba = q.lba) (halign : d.Aligned T.blockSize)
    (hrec : .received d ∈ evs) (hcall : .io (taskCall T session d) true ∈ evs) {p : ℕ}
    (hp : d.extent.Mem p) (hlt : p < nBytesOf T q) : Arrived T q evs p := by
  obtain ⟨i, rfl⟩ : ∃ i, p = d.offset + i := ⟨p - d.offset, (Nat.add_sub_cancel' hp.1).symm⟩
  have h_i : i < d.data.length := by
    have := hp.2
    simp only [Pdu.extent] at this
    omega
  have h_data := d.data_lt
  have h_len : d.data.length / T.blockSize ≤ d.data.length := Nat.div_le_self _ _
  have h_n : (UInt32.ofNat (d.data.length / T.blockSize)).toNat * T.blockSize =
      d.data.length := by
    rw [toNat_ofNat_32 (by omega)]
    exact Nat.div_mul_cancel (Nat.dvd_of_mod_eq_zero halign.2)
  -- the block of the offset is one of the command's, so its address does not wrap around
  have h_block : d.offset / T.blockSize < q.nBlocks.toNat := by
    refine Nat.div_lt_of_lt_mul ?_
    unfold nBytesOf Target.nBytes at hlt
    rw [Nat.mul_comm]
    omega
  have h_lba : (q.lba + UInt64.ofNat (d.offset / T.blockSize)).toNat =
      q.lba.toNat + d.offset / T.blockSize := toNat_add_ofNat (by omega)
  have h_stores : (Event.io (taskCall T session d) true).Stores T.blockSize
      ((session.bufferLba + UInt64.ofNat (d.offset / T.blockSize)).toNat * T.blockSize + i)
      d.data[i] := Scsi.stores_writeCall (by rw [h_n]; exact h_i) h_i
  rw [hlba, h_lba, Nat.add_mul, Nat.div_mul_cancel (Nat.dvd_of_mod_eq_zero halign.1),
    Nat.add_assoc] at h_stores
  refine ⟨d.data[i], .inr ⟨d, hrec, hop, Nat.le_add_right _ _, ?_⟩, _, hcall, h_stores⟩
  rw [Nat.add_sub_cancel_left, List.getElem?_eq_getElem h_i]

/-- Data that is taken has arrived, at the place its offset stands for. -/
theorem Take.arrived {q d : Pdu} {session session' : R2tSession} {evs : List Event}
    (h : Take T d session evs session') (hend : q.lba.toNat + q.nBlocks.toNat < 2 ^ 64)
    (hop : d.bhs.getOpcode = .scsiDataOut) (hlba : session.bufferLba = q.lba) {p : ℕ}
    (hp : d.extent.Mem p) (hlt : p < nBytesOf T q) : Arrived T q (.received d :: evs) p := by
  cases h with
  -- an empty extent holds no position
  | empty hd =>
    simp only [Extent.Mem, Pdu.extent, hd, List.length_nil] at hp
    omega
  | written hd halign hfua =>
    exact arrived_of_taskCall hend hop hlba halign (by simp) (by simp) hp hlt
  | unsynced hd halign hfua =>
    exact arrived_of_taskCall hend hop hlba halign (by simp) (by simp) hp hlt

/-! ### The transfer -/

variable (T) in
/-- The R2T session of a transfer that has taken the extents `es`: what is
missing by the count. -/
structure Counts (q : Pdu) (es : List Extent) (session : R2tSession) : Prop where
  bufferLba : session.bufferLba = q.lba
  isWriteSame : session.isWriteSame = false
  bytesLeft : (session.bytesLeft.toNat + Extent.total es) % 2 ^ 32 =
    (nBytesOf T q - immediateBlocks T q * T.blockSize) % 2 ^ 32

variable (T) in
/-- A transfer before its first GOOD: what the extents taken so far cover has
arrived. -/
structure Transferring (q : Pdu) (tag : UInt32) (evs : List Event) (s : Watched β) : Prop where
  session : ∃ session, s.1.ses.getR2tSesion tag = some session ∧ Counts T q s.2 session
  quiet : ∀ e ∈ evs, ¬ IsGood q e
  immediate : ∀ p, p < q.data.length → p < nBytesOf T q → Arrived T q evs p
  taken : ∀ e ∈ s.2, ∀ p, e.Mem p → p < nBytesOf T q → Arrived T q evs p

/-- The counters after data that is taken: it is noted, and what is left is less
by its length. -/
theorem Counts.take {q d : Pdu} {es : List Extent} {session session' : R2tSession}
    {evs : List Event} (h : Counts T q es session) (ht : Take T d session evs session') :
    Counts T q (es ++ [d.extent]) session' := by
  have h_left := ht.bytesLeft
  have h_count := h.bytesLeft
  -- one extent more, and as many bytes less to go
  have h_total : Extent.total (es ++ [d.extent]) = Extent.total es + d.data.length := by
    simp [Pdu.extent]
  have h_fields : session'.bufferLba = session.bufferLba ∧
      session'.isWriteSame = session.isWriteSame := by
    rcases ht.eq_or with rfl | rfl <;> exact ⟨rfl, rfl⟩
  exact
    { bufferLba := h_fields.1.trans h.bufferLba
      isWriteSame := h_fields.2.trans h.isWriteSame
      bytesLeft := by rw [h_total]; omega }

/-- Data that is taken makes the R2T session another one. -/
theorem Take.ne_of_data {d : Pdu} {session session' : R2tSession} {evs : List Event}
    (h : Take T d session evs session') (hd : d.data ≠ []) : session' ≠ session := by
  rintro rfl
  have h_left := h.bytesLeft
  have h_pos := List.length_pos_of_ne_nil hd
  have h_data := d.data_lt
  omega

/-- **When nothing is missing by the count**, and the extents neither overlap
nor leave the buffer, everything has arrived. -/
theorem all_arrived {q : Pdu} {es : List Extent} {session : R2tSession} {evs : List Event}
    (hlt : nBytesOf T q < 2 ^ 32) (hcount : Counts T q es session) (hleft : session.bytesLeft = 0)
    (hnd : (Extent.spread es).Nodup) (hsub : ∀ p ∈ Extent.spread es, remaining T q p)
    (himm : ∀ p, p < q.data.length → p < nBytesOf T q → Arrived T q evs p)
    (htaken : ∀ e ∈ es, ∀ p, e.Mem p → p < nBytesOf T q → Arrived T q evs p) {p : ℕ}
    (hp : p < taskBytes T q) : Arrived T q evs p := by
  have h_p : p < nBytesOf T q := lt_of_lt_of_le hp (min_le_left _ _)
  have h_blocks : immediateBlocks T q * T.blockSize ≤ q.data.length := Nat.div_mul_le_self _ _
  have h_le := Extent.total_le_of_disjoint hnd hsub
  have h_count := hcount.bytesLeft
  rw [hleft, UInt32.toNat_zero] at h_count
  have h_total : Extent.total es = nBytesOf T q - immediateBlocks T q * T.blockSize := by omega
  -- the position came with the command, or an extent covers it: they are as long together as what
  -- is missing
  by_cases h_imm : p < immediateBlocks T q * T.blockSize
  · exact himm p (by omega) h_p
  · obtain ⟨e, he, hmem⟩ := Extent.covers_of_disjoint hnd hsub h_total p (by omega) h_p
    exact htaken e he p hmem h_p

section Step

variable {q d : Pdu} {evs : List Event} {s : Watched β} {c' : Conn β}

/-- A step without GOOD that leaves the R2T session alone. -/
theorem Transferring.stay (h : Transferring T q d.tag evs s)
    (hses : c'.ses.getR2tSesion d.tag = s.1.ses.getR2tSesion d.tag) {new : List Event}
    (hnew : ∀ e ∈ new, ¬ IsGood q e) :
    Transferring T q d.tag (evs ++ new) (c', watch s.1 d c' s.2) := by
  rw [watch, if_pos hses]
  refine ⟨hses ▸ h.session, List.forall_mem_append.mpr ⟨h.quiet, hnew⟩, ?_, ?_⟩
  · exact fun p hp hlt => (h.immediate p hp hlt).mono (List.subset_append_left _ _)
  · exact fun e he p hp hlt => (h.taken e he p hp hlt).mono (List.subset_append_left _ _)

/-- What has arrived after data that is taken. -/
theorem Transferring.taken_append (h : Transferring T q d.tag evs s)
    (hend : q.lba.toNat + q.nBlocks.toNat < 2 ^ 64) (hop : d.bhs.getOpcode = .scsiDataOut)
    {session session' : R2tSession} (hlba : session.bufferLba = q.lba) {es : List Event}
    (ht : Take T d session es session') {e : Extent} (he : e ∈ s.2 ++ [d.extent]) {p : ℕ}
    (hp : e.Mem p) (hlt : p < nBytesOf T q) : Arrived T q (evs ++ .received d :: es) p := by
  rcases List.mem_append.mp he with he | he
  · exact (h.taken e he p hp hlt).mono (List.subset_append_left _ _)
  · obtain rfl := List.mem_singleton.mp he
    exact (ht.arrived hend hop hlba hp hlt).mono (List.subset_append_right _ _)

/-- **A Data-Out of the transfer** keeps it going without GOOD, or ends it with
a GOOD that is honest. -/
theorem Transferring.step (fuel : ℕ) (h : Transferring T q d.tag evs s)
    (hend : q.lba.toNat + q.nBlocks.toNat < 2 ^ 64) (hlt : nBytesOf T q < 2 ^ 32)
    (hop : d.bhs.getOpcode = .scsiDataOut) {fresh : Prop} (hP : ClosedInOrder T fresh q s d)
    (hstep : serve T fuel s.1 d = .ok c') :
    ∃ new, c'.scsi.history = s.1.scsi.history ++ new ∧
      (Transferring T q d.tag (evs ++ new) (c', watch s.1 d c' s.2) ∨
        c'.ses.getR2tSesion d.tag = none ∧ Honest T q (evs ++ new)) := by
  obtain ⟨session, h_ses, h_count⟩ := h.session
  obtain ⟨c'', h_serve, h_out⟩ := serve_dataOut (T := T) fuel s.1 hop
  obtain rfl := Except.ok.inj (h_serve.symm.trans hstep)
  obtain ⟨new, h_does, h_step⟩ := h_out.taskStep h_ses h_count.isWriteSame
  refine ⟨new, h_does.history, ?_⟩
  generalize h_after : c''.ses.getR2tSesion d.tag = after at h_step
  cases h_step with
  | refused hbad =>
    exact .inl (h.stay (h_after.trans h_ses.symm) (by simp [not_isGood_received]))
  | reserved hd halign hl ok =>
    exact .inl (h.stay (h_after.trans h_ses.symm)
      (by simp [not_isGood_received, not_isGood_ioError]))
  | writeFailed hd halign hl ok =>
    exact .inl (h.stay (h_after.trans h_ses.symm)
      (by simp [not_isGood_received, not_isGood_ioError, not_isGood_io]))
  | synced hd halign hl hfua ok =>
    exact .inl (h.stay (h_after.trans h_ses.symm)
      (by simp [not_isGood_received, not_isGood_ioError, not_isGood_io]))
  | @taken es session' ht hd hl htake hF =>
    have h_ne : c''.ses.getR2tSesion d.tag ≠ s.1.ses.getR2tSesion d.tag := by
      rw [h_after, h_ses]
      exact fun heq => htake.ne_of_data hd (Option.some.inj heq)
    left
    rw [watch, if_neg h_ne]
    refine ⟨⟨session', h_after, h_count.take htake⟩, ?_, ?_, ?_⟩
    · refine List.forall_mem_append.mpr ⟨h.quiet, ?_⟩
      exact List.forall_mem_cons.mpr ⟨not_isGood_received q d, not_isGood_take htake⟩
    · exact fun p hp hlt => (h.immediate p hp hlt).mono (List.subset_append_left _ _)
    · exact fun e he p hp hlt => h.taken_append hend hop h_count.bufferLba htake he hp hlt
  | @ended es session' ht hl htake hF hleft ok =>
    obtain ⟨-, -, h_nd, h_sub⟩ := hP session h_ses hF ht
    refine .inr ⟨rfl, ?_⟩
    have h_arrived : ∀ p, p < taskBytes T q → Arrived T q (evs ++ .received d :: es) p :=
      fun p hp => all_arrived hlt (h_count.take htake) hleft h_nd h_sub
        (fun p hp hlt => (h.immediate p hp hlt).mono (List.subset_append_left _ _))
        (fun e he p hp hlt => h.taken_append hend hop h_count.bufferLba htake he hp hlt) hp
    have h_none : ∀ e ∈ evs ++ .received d :: es, ¬ IsGood q e :=
      List.forall_mem_append.mpr ⟨h.quiet,
        List.forall_mem_cons.mpr ⟨not_isGood_received q d, not_isGood_take htake⟩⟩
    have h_honest := honest_of_last (e := .sent (goodPdu T session') ok) h_none h_arrived
    rwa [List.append_assoc, List.cons_append] at h_honest
  | @continued es session' ht hl htake hF hleft asked hasked ok =>
    -- by the count something would be missing
    obtain ⟨-, h_left, -⟩ := hP session h_ses hF ht
    have h_bytes := htake.bytesLeft
    have h_small := session'.bytesLeft.toNat_lt
    have h_data := d.data_lt
    exact absurd (UInt32.toNat_inj.mp (by rw [UInt32.toNat_zero]; omega)) hleft

end Step

/-! ### Data-Outs that are not answered with GOOD -/

theorem not_isGood_transfer (q : Pdu) {e : Event} (h : e.IsTransfer) : ¬ IsGood q e := by
  cases e with
  | received d => exact id
  | io call ok => exact id
  | sent p ok => exact h.elim

/-- Only a Data-Out that is taken and closes a burst is answered with GOOD. What
is sent for any other one has another status, or none. -/
theorem DataOutOutcome.quiet {c c' : Conn β} {d : Pdu} (h : DataOutOutcome T c d c') (q : Pdu)
    (hnot : ∀ session, c.ses.getR2tSesion d.tag = some session → d.bhs.getF = true →
      ¬ Takes T c d session) :
    ∃ new, c.scsi.Does c'.scsi new ∧ ∀ e ∈ new, ¬ IsGood q e := by
  have h_received := Scsi.does_note (s := c.scsi) (.received d)
  have h_written (session : R2tSession) : ∃ es, c.scsi.Does (writtenDataOut T c d session).2 es ∧
      ∀ e ∈ es, ¬ IsGood q e := by
    obtain ⟨es, ht⟩ := transfers_writtenDataOut (T := T) c d session
    exact ⟨_, h_received.trans ht.does, List.forall_mem_cons.mpr
      ⟨not_isGood_received q d, fun e he => not_isGood_transfer q (ht.transfer e he)⟩⟩
  have h_syncs {fs : List Event} (h : ∀ e ∈ fs, ∃ ok, e = .io .sync ok) :
      ∀ e ∈ fs, ¬ IsGood q e := by
    intro e he
    obtain ⟨ok, rfl⟩ := h e he
    exact not_isGood_io q _ ok
  -- the events of each way are those of the write, of the sync and of the answer
  cases h with
  | unknown hses => exact ⟨_, h_received, by simp [not_isGood_received]⟩
  | refused hses hbad => exact ⟨_, h_received, by simp [not_isGood_received]⟩
  | @writeFailed session hses hd halign hwritten =>
    obtain ⟨es, h_does, h_es⟩ := h_written session
    exact ⟨_, h_does.trans (Scsi.does_note _),
      List.forall_mem_append.mpr ⟨h_es, by simp [not_isGood_ioError]⟩⟩
  | @syncFalse session hses hd halign hwritten hfua hsync =>
    obtain ⟨es, h_does, h_es⟩ := h_written session
    obtain ⟨fs, h_sync, h_fs⟩ := (writtenDataOut T c d session).2.does_sync (T := T)
    exact ⟨_, (h_does.trans h_sync).trans (Scsi.does_note _), List.forall_mem_append.mpr
      ⟨List.forall_mem_append.mpr ⟨h_es, h_syncs h_fs⟩, by simp [not_isGood_ioError]⟩⟩
  | @delivered session _ _ hses hd hdel hF =>
    cases hdel with
    | empty hd' => exact absurd hd' hd
    | data _ halign hwritten hsync =>
      obtain ⟨es, h_does, h_es⟩ := h_written session
      obtain ⟨fs, h_sync, h_fs⟩ :=
        does_syncedIf (T := T) session.fua (writtenDataOut T c d session).2
      exact ⟨_, h_does.trans h_sync, List.forall_mem_append.mpr ⟨h_es, h_syncs h_fs⟩⟩
  | finished hses hdel hF => exact absurd ⟨_, _, hdel⟩ (hnot _ hses hF)

/-! ### The command -/

/-- The immediate data of a command: its backend calls, and that it has arrived
if they succeed. -/
theorem storedImmediate_arrived (c : Conn β) (q : Pdu) :
    ∃ es, c.scsi.Does (storedImmediate T c q).2 (.received q :: es) ∧
      (∀ e ∈ es, e.IsTransfer) ∧
      (q.lba.toNat + q.nBlocks.toNat < 2 ^ 64 → (storedImmediate T c q).1 = .ok →
        ∀ p, p < q.data.length → p < nBytesOf T q → Arrived T q (.received q :: es) p) := by
  obtain ⟨es, ht⟩ :=
    Scsi.transfers_storeImmediate (T := T) (c.receive q).scsi q.lba q.nBlocks q.data
  refine ⟨es, (Scsi.does_note (.received q)).trans ht.does, ht.transfer, ?_⟩
  intro hend hok p hp hlt
  obtain ⟨fs, h_does, h_stores⟩ :=
    Scsi.stores_of_storeImmediate (s := (c.receive q).scsi) q.data_lt hend hok
  obtain rfl := h_does.unique ht.does
  have h_byte : q.data[p]? = some q.data[p] := List.getElem?_eq_getElem hp
  obtain ⟨e, he, h_st⟩ := h_stores p _ hlt h_byte
  exact ⟨_, .inl h_byte, e, List.mem_cons_of_mem _ he, h_st⟩

variable (T) in
/-- The invariant of a run in order that has started at `c₀`: the trace is
honest so far, and a transfer under a fresh tag is either going on or over. -/
def HonestSoFar (c₀ : Conn β) (fresh : Prop) (q : Pdu) (tag : UInt32) (s : Watched β) : Prop :=
  ∃ evs, s.1.scsi.history = c₀.scsi.history ++ evs ∧ Honest T q evs ∧
    (fresh → s.1.ses.getR2tSesion tag = none ∨
      q.lba.toNat + q.nBlocks.toNat < 2 ^ 64 ∧ nBytesOf T q < 2 ^ 32 ∧
        Transferring T q tag evs s)

/-- **A command in order**: what it sends is honest, and an R2T session it opens
is a transfer. -/
theorem WriteOutcome.honest {c c' : Conn β} {q : Pdu} (h : WriteOutcome T c q c')
    (hI : CommandInOrder T c q) :
    HonestSoFar T c (c.ses.getR2tSesion (commandTag T c q) = none) q (commandTag T c q)
      (c', []) := by
  obtain ⟨es, h_does, h_transfer, h_arrived⟩ := storedImmediate_arrived (T := T) c q
  have h_quiet : ∀ e ∈ Event.received q :: es, ¬ IsGood q e := List.forall_mem_cons.mpr
    ⟨not_isGood_received q q, fun e he => not_isGood_transfer q (h_transfer e he)⟩
  -- GOOD is sent in two of the ways, `complete` and `mismatch`; `transfer` sends no answer, and
  -- leaves an R2T session behind
  cases h with
  | @refused sense hcheck =>
    refine ⟨_, ((Scsi.does_note (.received q)).trans (Scsi.does_note _)).history,
      honest_of_none ?_, .inl⟩
    simp [not_isGood_received, not_isGood_sense q (sense_ne_nil hcheck)]
  | conflict hcheck hstored =>
    refine ⟨_, (h_does.trans (Scsi.does_note _)).history, ?_, .inl⟩
    refine (honest_of_none h_quiet).append ?_
    have h_sense : errorReservationConflict1 ≠ [] := by
      simp [errorReservationConflict1, fixedSense]
    simp [not_isGood_sense q h_sense]
  | failed hcheck hstored => exact ⟨_, h_does.history, honest_of_none h_quiet, .inl⟩
  | complete hcheck hstored hcomplete =>
    have h_end := Scsi.lt_of_validateRequest T c.scsi hcheck
    have h_bytes := hI hcheck hstored (.inl hcomplete)
    obtain ⟨fs, h_sync, h_fs⟩ := does_syncedIf (T := T) (q.fua && decide (q.data ≠ []))
      (storedImmediate T c q).2
    refine ⟨_, ((h_does.trans h_sync).trans (Scsi.does_note _)).history,
      honest_of_last ?_ ?_, .inl⟩
    · refine List.forall_mem_append.mpr ⟨h_quiet, fun e he => ?_⟩
      obtain ⟨ok, rfl⟩ := h_fs e he
      exact not_isGood_io q _ ok
    · intro p hp
      exact (h_arrived h_end hstored p (by omega) (lt_of_lt_of_le hp (min_le_left _ _))).mono
        (List.subset_append_left _ _)
  | mismatch hcheck hstored hcomplete hlen =>
    have h_end := Scsi.lt_of_validateRequest T c.scsi hcheck
    have h_bytes := hI hcheck hstored (.inr hlen)
    refine ⟨_, (h_does.trans (Scsi.does_note _)).history, honest_of_last h_quiet ?_, .inl⟩
    intro p hp
    exact h_arrived h_end hstored p (by omega) (lt_of_lt_of_le hp (min_le_left _ _))
  | transfer hcheck hstored hcomplete hlen =>
    have h_end := Scsi.lt_of_validateRequest T c.scsi hcheck
    have h_lt : nBytesOf T q < 2 ^ 32 := by
      rw [hlen]
      exact q.bhs.getExpDatLen.toNat_lt
    obtain ⟨fs, h_open, h_fs⟩ : ∃ fs, (storedImmediate T c q).2.Does
        (openTransfer T { c with scsi := (storedImmediate T c q).2 } q).scsi fs ∧
        ∀ e ∈ fs, ¬ IsGood q e := by
      refine ⟨_, does_openTransfer { c with scsi := (storedImmediate T c q).2 } q, ?_⟩
      split <;> simp [IsGood]
    have h_all := List.forall_mem_append.mpr ⟨h_quiet, h_fs⟩
    refine ⟨_, (h_does.trans h_open).history, honest_of_none h_all,
      fun hfresh => .inr ⟨h_end, h_lt, ?_⟩⟩
    refine
      { session := ⟨taskOf T q, getR2tSesion_openTransfer hfresh, taskOf_bufferLba q,
          taskOf_isWriteSame q, ?_⟩
        quiet := h_all
        immediate := fun p hp hlt =>
          (h_arrived h_end hstored p hp hlt).mono (List.subset_append_left _ _)
        taken := by simp }
    rw [toNat_bytesLeft h_lt, Extent.total_nil, Nat.add_zero]

/-! ### The whole run -/

/-- **A Data-Out in order.** If it closes the last burst, everything has
arrived, and the GOOD is the first one; if not, none is sent. -/
theorem HonestSoFar.step (fuel : ℕ) {c₀ : Conn β} {fresh : Prop} {q d : Pdu} {tag : UInt32}
    {s s' : Watched β} (h : HonestSoFar T c₀ fresh q tag s)
    (hop : d.bhs.getOpcode = .scsiDataOut) (htag : d.tag = tag)
    (hP : ClosedInOrder T fresh q s d)
    (hstep : Machine.withGhost (serve T fuel) watch s d = .ok s') :
    HonestSoFar T c₀ fresh q tag s' := by
  subst htag
  obtain ⟨evs, h_evs, h_hon, h_task⟩ := h
  obtain ⟨h_serve, h_watch⟩ := Machine.withGhost_eq_ok.mp hstep
  obtain ⟨c', h_serve', h_out⟩ := serve_dataOut (T := T) fuel s.1 hop
  obtain rfl := Except.ok.inj (h_serve'.symm.trans h_serve)
  have h_s' : s' = (s'.1, watch s.1 d s'.1 s.2) := Prod.ext rfl h_watch
  -- without a burst of the transfer that ends, there is no GOOD
  have h_silent (hnot : ∀ session, s.1.ses.getR2tSesion d.tag = some session →
      d.bhs.getF = true → ¬ Takes T s.1 d session)
      (hafter : fresh → s'.1.ses.getR2tSesion d.tag = none) :
      HonestSoFar T c₀ fresh q d.tag s' := by
    obtain ⟨new, h_does, h_new⟩ := h_out.quiet q hnot
    exact ⟨evs ++ new, by rw [h_does.history, h_evs, List.append_assoc], h_hon.append h_new,
      fun hf => .inl (hafter hf)⟩
  by_cases hfresh : fresh
  · rcases h_task hfresh with h_none | ⟨h_end, h_lt, h_tr⟩
    · refine h_silent (fun session hs => ?_) fun _ => ?_
      · exact absurd (h_none.symm.trans hs) (by simp)
      · rw [h_out.eq_receive h_none]
        exact h_none
    · obtain ⟨new, h_new, h_tr' | ⟨h_none, h_hon'⟩⟩ := h_tr.step fuel h_end h_lt hop hP h_serve
      · refine ⟨evs ++ new, by rw [h_new, h_evs, List.append_assoc],
          honest_of_none h_tr'.quiet, fun _ => .inr ⟨h_end, h_lt, ?_⟩⟩
        rw [h_s']
        exact h_tr'
      · exact ⟨evs ++ new, by rw [h_new, h_evs, List.append_assoc], h_hon', fun _ => .inl h_none⟩
  · refine h_silent (fun session hs hF ht => ?_) fun hf => absurd hf hfresh
    exact hfresh (hP session hs hF ht).1

/-- **No premature and no false GOOD.** A WRITE command and its Data-Outs are
served to the end. If the command is in order, and every burst is closed in
order, the answers are honest. -/
theorem honest_of_inOrder (fuel : ℕ) (c : Conn β) {q : Pdu} (hq : q.IsWrite) {dos : List Pdu}
    (hdos : ∀ d ∈ dos, d.bhs.getOpcode = .scsiDataOut ∧ d.tag = commandTag T c q) :
    ∃ c₁ c', serve T fuel c q = .ok c₁ ∧ Machine.run (serve T fuel) c₁ dos = .ok c' ∧
      (CommandInOrder T c q →
        Machine.Along (Machine.withGhost (serve T fuel) watch)
          (ClosedInOrder T (c.ses.getR2tSesion (commandTag T c q) = none) q) (c₁, []) dos →
        ∃ evs, c'.scsi.history = c.scsi.history ++ evs ∧ Honest T q evs) := by
  obtain ⟨c₁, h_serve, h_out⟩ := serve_write (T := T) fuel c hq
  obtain ⟨c', h_run⟩ : ∃ c', Machine.run (serve T fuel) c₁ dos = .ok c' := by
    refine Machine.run_ok_of_mem (fun d hd s => ?_) c₁
    obtain ⟨s', hs', -⟩ := serve_dataOut (T := T) fuel s (hdos d hd).1
    exact ⟨s', hs'⟩
  refine ⟨c₁, c', h_serve, h_run, fun hI hal => ?_⟩
  obtain ⟨es', h_watched⟩ := Machine.run_withGhost watch h_run []
  obtain ⟨evs, h_evs, h_hon, -⟩ := Machine.run_induction
    (fun s d s' h hP h_step => h.step fuel hP.2.1 hP.2.2 hP.1 h_step) dos (c₁, []) (c', es')
    (h_out.honest hI) (hal.and_mem hdos) h_watched
  exact ⟨evs, h_evs, h_hon⟩

/-- A Data-Out with one block of equal bytes. -/
def Sample.blockOut (offset : UInt8) (final : Bool) (b : UInt8) : Pdu :=
  Sample.dataOut 5 offset final (Sample.block b) (Sample.block_lt b)

/-- The first block of a burst, and the second one, which ends it. -/
def Sample.firstBlock : Pdu := Sample.blockOut 0 false 1

def Sample.secondBlock : Pdu := Sample.blockOut 16 true 2

theorem Sample.dataOuts_twoBlocks : ∀ d ∈ [Sample.firstBlock, Sample.secondBlock],
    d.bhs.getOpcode = .scsiDataOut ∧
      d.tag = commandTag (Sample.target 8) (Sample.conn 8 []) Sample.twoBlocks := by
  decide +kernel

/-- The blocks in two Data-Outs: one GOOD response, when both are stored. It
comes with the second one, which has the F bit. -/
theorem honest_twoBlocks :
    ∃ c₁ c', serve (Sample.target 8) 0 (Sample.conn 8 []) Sample.twoBlocks = .ok c₁ ∧
      Machine.run (serve (Sample.target 8) 0) c₁ [Sample.firstBlock, Sample.secondBlock] =
        .ok c' ∧
      ∃ evs, c'.scsi.history = (Sample.conn 8 []).scsi.history ++ evs ∧
        Honest (Sample.target 8) Sample.twoBlocks evs := by
  have h_write : Sample.twoBlocks.IsWrite := ⟨by decide +kernel, by decide +kernel⟩
  obtain ⟨c₁, c', h_serve, h_run, h_honest⟩ :=
    honest_of_inOrder 0 (Sample.conn 8 []) h_write Sample.dataOuts_twoBlocks
  refine ⟨c₁, c', h_serve, h_run, h_honest (fun _ _ => by decide +kernel)
    ⟨fun _ _ h_final _ => absurd h_final (by decide +kernel),
      fun s h_s => ⟨?_, fun _ _ => trivial⟩⟩⟩
  -- after the first block, one is left by the count, and its place has been noted
  have h_eval : ((serve (Sample.target 8) 0 (Sample.conn 8 []) Sample.twoBlocks).bind fun c =>
      Machine.withGhost (serve (Sample.target 8) 0) watch (c, []) Sample.firstBlock).toOption.any
      (fun s => decide (((s.1.ses.getR2tSesion Sample.secondBlock.tag).map
        R2tSession.bytesLeft = some 16) ∧ s.2 = [Sample.firstBlock.extent])) = true := by
    decide +kernel
  obtain ⟨s', h_s', h_left, h_taken⟩ := Machine.exists_ok_of_any h_eval
  rw [h_serve] at h_s'
  obtain rfl : s = s' := Except.ok.inj (h_s.symm.trans h_s')
  intro session h_ses _ _
  rw [h_ses] at h_left
  have h_bytes : session.bytesLeft = 16 := Option.some.inj h_left
  rw [h_taken, h_bytes]
  refine ⟨by decide +kernel, by decide +kernel, by decide +kernel, ?_⟩
  have h_all : ∀ p ∈ Extent.spread ([Sample.firstBlock.extent] ++ [Sample.secondBlock.extent]),
      immediateBlocks (Sample.target 8) Sample.twoBlocks * (Sample.target 8).blockSize ≤ p ∧
        p < nBytesOf (Sample.target 8) Sample.twoBlocks := by decide +kernel
  exact h_all

/-- The first of two blocks with the F bit: GOOD is sent for it, and again for
the second block. -/
theorem honest_fails_twice :
    ∃ c', Machine.run (serve (Sample.target 8) 0) (Sample.conn 8 [])
        [Sample.twoBlocks, Sample.dataOut 5 0 true (Sample.block 1),
          Sample.dataOut 5 16 true (Sample.block 2)] = .ok c' ∧
      ¬ Honest (Sample.target 8) Sample.twoBlocks c'.scsi.history := by
  have h_eval : (Machine.run (serve (Sample.target 8) 0) (Sample.conn 8 [])
      [Sample.twoBlocks, Sample.dataOut 5 0 true (Sample.block 1),
        Sample.dataOut 5 16 true (Sample.block 2)]).toOption.any
      (fun c => decide ((c.scsi.history.filter (IsGood Sample.twoBlocks ·)).length = 2)) =
      true := by decide +kernel
  obtain ⟨c', h_run, h_two⟩ := Machine.exists_ok_of_any h_eval
  refine ⟨c', h_run, fun h => ?_⟩
  -- an honest trace has one GOOD at most
  have h_one := h.length_filter_le
  omega

end IscsiTarget
