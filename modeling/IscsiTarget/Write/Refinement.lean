import IscsiTarget.Lib.Run
import IscsiTarget.Model.Sample
import IscsiTarget.Write.DataOut

/-!
# A WRITE, from the command to the medium

`Delivery` is a WRITE as an initiator plays it: a command for blocks inside the
device, immediate data of any length, and Data-Out PDUs that bring the rest in
any order and in any pieces. The abstract effect is one line (`Landed`): the
payload is stored at the address of the command, nothing else changes, and no R2T
session is left over.

While the PDUs arrive, `Assembling` holds: every byte that is not in a PDU still
to come has arrived, and the R2T session counts what is missing. Two other
invariants describe the deliveries that do not get there. With `Stuck` the R2T
session never moves on, since no Data-Out is taken. With `Settled` there is no R2T
session, and nothing happens any more.

`write_refines_iff` puts them together: the payload lands exactly when
`LandsOn` holds, which leaves out the WRITE(6) commands in whose address the code
sees an FUA bit.
-/

namespace IscsiTarget

variable {β : Type} (T : Target β) (medium : β → Medium UInt8)

/-! ### Deliveries -/

/-- No backend call between the two states failed. -/
def NoFailure (c c' : Conn β) : Prop :=
  ∀ e ∈ c'.scsi.history.drop c.scsi.history.length, ¬ e.Failed

/-- A Data-Out that carries a part of the payload, of whole blocks and in its
place. -/
structure Carries (payload : Bytes) (tag : UInt32) (d : Pdu) : Prop where
  opcode : d.bhs.getOpcode = .scsiDataOut
  tag_eq : d.tag = tag
  aligned : d.Aligned T.blockSize
  /-- The data is the piece of the payload its offset stands for. -/
  data_eq : d.data = (payload.drop d.offset).take d.data.length

/-- A WRITE as an initiator plays it: the command `q`, and the Data-Outs `dos`
for what the immediate data has left out. -/
structure Delivery (c : Conn β) (q : Pdu) (payload : Bytes) (dos : List Pdu) : Prop where
  write : q.IsWrite
  /-- The FUA bit is clear. A WRITE(6) has none. -/
  fua : q.bhs.getCdb.opcode ≠ .write6 → q.fua = false
  /-- The protect bits are clear. -/
  protect : q.bhs.getCdb.opcode ≠ .write6 → getElem q.bhs.getCdb 1 Cdb.lt1 >>> 5 = 0
  inside : q.lba.toNat + q.nBlocks.toNat ≤ c.scsi.size T
  expDatLen : q.bhs.getExpDatLen.toNat = nBytesOf T q
  length : payload.length = nBytesOf T q
  /-- The immediate data is the beginning of the payload. -/
  immediate : q.data <+: payload
  carries : ∀ d ∈ dos, Carries T payload (commandTag T c q) d
  /-- The Data-Outs cover what is left, from the last block boundary on. -/
  tiles : Extent.Tiles (dos.map Pdu.extent) (immediateBlocks T q * T.blockSize) (nBytesOf T q)
  /-- The last PDU has the F bit. -/
  final : ∀ d, dos.getLast? = some d → d.bhs.getF = true
  fresh : c.ses.getR2tSesion (commandTag T c q) = none

/-- The effect of a WRITE: the payload at its address, nothing else, and the R2T
session is gone. -/
def Landed (c : Conn β) (q : Pdu) (payload : Bytes) (c' : Conn β) : Prop :=
  medium c'.scsi.disk = (medium c.scsi.disk).store (q.lba.toNat * T.blockSize) payload ∧
    c'.ses.getR2tSesion (commandTag T c q) = none

/-- The deliveries that land. No Data-Out of a WRITE(6) is taken when the bit of
its address is set that is the FUA bit of the longer commands. When the device
is reserved by another session nothing is stored, so it depends on what is
stored already. -/
def LandsOn (c : Conn β) (q : Pdu) (payload : Bytes) : Prop :=
  if c.scsi.lockingStatus T = .lockedOther then
    nBytesOf T q = 0 ∨ q.data ≠ [] ∧
      (medium c.scsi.disk).store (q.lba.toNat * T.blockSize) payload = medium c.scsi.disk
  else ¬ (q.bhs.getCdb.opcode = .write6 ∧ q.fua = true ∧ q.data.length < nBytesOf T q)

instance (c c' : Conn β) : Decidable (NoFailure c c') :=
  inferInstanceAs (Decidable (∀ e ∈ _, _))

/-! ### Runs without a failure -/

variable {T medium}

namespace NoFailure

variable {c c₁ c₂ c' : Conn β}

/-- A part of a run without a failure. -/
theorem part (h : NoFailure c c') (h₁ : c.Extends c₁) (h₂ : c₁.Extends c₂)
    (h₃ : c₂.Extends c') : NoFailure c₁ c₂ := by
  obtain ⟨es, hes⟩ := h₁
  obtain ⟨fs, hfs⟩ := h₂
  obtain ⟨gs, hgs⟩ := h₃
  intro e he
  refine h e ?_
  rw [hfs.history, List.drop_left] at he
  rw [hgs.history, hfs.history, hes.history, List.append_assoc, List.append_assoc,
    List.drop_left]
  exact List.mem_append_right _ (List.mem_append_left _ he)

/-- Calls that move data in a run without a failure do not fail. -/
theorem not_failGeneral (h : NoFailure c c') (h₁ : c.Extends c₁) {rc : RwResult} {s' : Scsi β}
    {evs : List Event} (ht : Scsi.Transfers T c₁.scsi rc s' evs) (ses : Session)
    (h₃ : Conn.Extends { scsi := s', ses := ses } c') : rc ≠ .failGeneral := by
  intro hrc
  obtain ⟨e, he, hf⟩ := ht.fail hrc
  have h_part := h.part h₁ (⟨evs, ht.does⟩ : c₁.Extends { scsi := s', ses := ses }) h₃
  refine h_part e ?_ hf
  rw [ht.does.history, List.drop_left]
  exact he

/-- A sync in a run without a failure succeeds. -/
theorem sync_ok (h : NoFailure c c') (h₁ : c.Extends c₁)
    (hl : c₁.scsi.lockingStatus T ≠ .lockedOther) (ses : Session)
    (h₃ : Conn.Extends { scsi := (c₁.scsi.sync T).2, ses := ses } c') :
    (c₁.scsi.sync T).1 = .ok := by
  have h_part := h.part h₁ (⟨_, Scsi.does_sync_of_unlocked hl⟩ :
    c₁.Extends { scsi := (c₁.scsi.sync T).2, ses := ses }) h₃
  rw [Scsi.sync_of_unlocked hl] at h_part ⊢
  rw [Scsi.afterCall_eq_ok_iff]
  have h_sync := h_part (.io .sync (T.backend.sync c₁.scsi.disk).1)
    (by simp [Scsi.afterCall])
  simpa [Event.Failed] using h_sync

end NoFailure

/-! ### Assembling the payload -/

variable (T medium) in
/-- The R2T session waits for the bytes of the PDUs still to come, and for
nothing else. It writes from the address of the command on, and does not sync. -/
structure Awaits (q : Pdu) (rest : List Pdu) (session : R2tSession) : Prop where
  bytesLeft : session.bytesLeft.toNat = Extent.total (rest.map Pdu.extent)
  bufferLba : session.bufferLba = q.lba
  fua : session.fua = false
  isWriteSame : session.isWriteSame = false

variable (T medium) in
/-- The payload on its way: what is not in a PDU still to come has arrived. It
is the invariant of the run of Data-Outs, whatever their order is. -/
structure Assembling (m₀ : Medium UInt8) (q : Pdu) (payload : Bytes) (tag : UInt32)
    (rest : List Pdu) (c : Conn β) : Prop where
  carries : ∀ d ∈ rest, Carries T payload tag d
  final : ∀ d, rest.getLast? = some d → d.bhs.getF = true
  length : payload.length = nBytesOf T q
  unlocked : c.scsi.lockingStatus T ≠ .lockedOther
  inside : q.lba.toNat + q.nBlocks.toNat ≤ c.scsi.size T
  arrived : ∀ p, p < payload.length → (∀ d ∈ rest, ¬ d.extent.Mem p) →
    (medium c.scsi.disk).Holds (q.lba.toNat * T.blockSize) payload p
  outside : ∀ a, a < q.lba.toNat * T.blockSize ∨
    q.lba.toNat * T.blockSize + payload.length ≤ a → medium c.scsi.disk a = m₀ a
  table :
    (∃ session, c.ses.getR2tSesion tag = some session ∧ Awaits q rest session ∧ rest ≠ []) ∨
    c.ses.getR2tSesion tag = none ∧ Extent.total (rest.map Pdu.extent) = 0

/-- The data of a Data-Out lies inside the payload. -/
theorem Carries.inside {payload : Bytes} {tag : UInt32} {d : Pdu} (h : Carries T payload tag d)
    (hd : d.data ≠ []) : d.offset + d.data.length ≤ payload.length := by
  have h_pos := List.length_pos_of_ne_nil hd
  have h_len := congrArg List.length h.data_eq
  rw [List.length_take, List.length_drop] at h_len
  omega

/-- The counters after a Data-Out that is taken. Its bytes are no longer among
those to come. -/
theorem Awaits.delivered {q d : Pdu} {rest : List Pdu} {c c' : Conn β}
    {session session' : R2tSession} (h : Awaits q (d :: rest) session)
    (hdel : Delivered T c d session session' c') : Awaits q rest session' := by
  have h_left := h.bytesLeft
  rw [List.map_cons, Extent.total_cons] at h_left
  change session.bytesLeft.toNat = d.data.length + _ at h_left
  cases hdel with
  -- an empty Data-Out counts nothing
  | empty hd => exact { h with bytesLeft := by rw [h_left, hd]; simp }
  | data hd halign hwritten hsync =>
    -- `bytes_left` goes down by the length of the data, of which there is enough
    have h_data := d.data_lt
    have h_n : (UInt32.ofNat d.data.length).toNat = d.data.length := toNat_ofNat_32 (by omega)
    refine { h with bytesLeft := ?_ }
    change (session.bytesLeft - UInt32.ofNat d.data.length).toNat = _
    rw [UInt32.toNat_sub_of_le _ _ (by rw [UInt32.le_iff_toNat_le]; omega), h_n]
    omega

namespace Assembling

variable {m₀ : Medium UInt8} {q d : Pdu} {payload : Bytes} {tag : UInt32} {rest : List Pdu}
  {c c' : Conn β}

/-- When only one PDU is to come, it has the F bit. -/
theorem rest_ne_nil (h : Assembling T medium m₀ q payload tag (d :: rest) c)
    (hF : d.bhs.getF = false) : rest ≠ [] := by
  rintro rfl
  have := h.final d rfl
  rw [hF] at this
  exact absurd this (by simp)

/-- Storing the data of the next PDU, whatever becomes of the R2T session: what
has arrived so far and this PDU are then in their places, and nothing outside of
the command has changed. -/
theorem next (h : Assembling T medium m₀ q payload tag (d :: rest) c) (hext : c.Extends c')
    (hmed : medium c'.scsi.disk =
      (medium c.scsi.disk).store (q.lba.toNat * T.blockSize + d.offset) d.data)
    (hsize : c'.scsi.size T = c.scsi.size T)
    (htable : (∃ session, c'.ses.getR2tSesion tag = some session ∧ Awaits q rest session ∧
        rest ≠ []) ∨
      c'.ses.getR2tSesion tag = none ∧ Extent.total (rest.map Pdu.extent) = 0) :
    Assembling T medium m₀ q payload tag rest c' := by
  have h_d := h.carries d List.mem_cons_self
  refine
    { carries := fun e he => h.carries e (List.mem_cons_of_mem d he)
      final := ?_
      length := h.length
      unlocked := by rw [hext.lockingStatus]; exact h.unlocked
      inside := by rw [hsize]; exact h.inside
      arrived := ?_
      outside := ?_
      table := htable }
  · intro e he
    refine h.final e ?_
    rw [List.getLast?_cons, he]
    rfl
  · intro p hp hrest
    rw [hmed]
    by_cases hd : d.data = []
    · -- an empty PDU carries no position
      rw [hd, Medium.store_nil]
      refine h.arrived p hp fun e he => ?_
      rcases List.mem_cons.mp he with rfl | he
      · simp [Pdu.extent, Extent.Mem, hd]
      · exact hrest e he
    · -- a position of this PDU gets its byte now, any other has it already
      rw [h_d.data_eq]
      refine Medium.Holds.store_fragment (h_d.inside hd) ?_
      by_cases hmem : d.extent.Mem p
      · exact .inr hmem
      · refine .inl (h.arrived p hp fun e he => ?_)
        rcases List.mem_cons.mp he with rfl | he
        · exact hmem
        · exact hrest e he
  · intro a ha
    rw [hmed, Medium.store_apply_of_notMem, h.outside a ha]
    by_cases hd : d.data = []
    · rw [hd, List.length_nil]
      omega
    · have := h_d.inside hd
      omega

/-- An empty PDU that leaves the R2T session alone. It brings nothing, so that
what is to come is the same without it. -/
theorem next_of_empty (h : Assembling T medium m₀ q payload tag (d :: rest) c)
    (hext : c.Extends c') (hd : d.data = []) (hdisk : c'.scsi.disk = c.scsi.disk)
    (hses : c'.ses = c.ses) (hrest : rest ≠ [] ∨ c.ses.getR2tSesion tag = none) :
    Assembling T medium m₀ q payload tag rest c' := by
  have h_len : d.extent.len = 0 := by simp [Pdu.extent, hd]
  have h_total : Extent.total ((d :: rest).map Pdu.extent) =
      Extent.total (rest.map Pdu.extent) := by
    rw [List.map_cons, Extent.total_cons, h_len, Nat.zero_add]
  refine h.next hext ?_ ?_ ?_
  · rw [hdisk, hd, Medium.store_nil]
  · rw [Scsi.size, Scsi.getSizeInBlocks, hdisk]
    rfl
  · rw [hses]
    rcases h.table with ⟨session, hs, haw, -⟩ | ⟨hs, htot⟩
    · -- the session is still there, so it waits for what comes behind
      refine .inl ⟨session, hs, { haw with bytesLeft := h_total ▸ haw.bytesLeft }, ?_⟩
      exact hrest.resolve_right (by rw [hs]; simp)
    · exact .inr ⟨hs, h_total ▸ htot⟩

/-- The PDU to come has an R2T session unless nothing is missing. -/
theorem awaits (h : Assembling T medium m₀ q payload tag (d :: rest) c) {session : R2tSession}
    (hses : c.ses.getR2tSesion d.tag = some session) :
    c.ses.getR2tSesion tag = some session ∧ Awaits q (d :: rest) session := by
  rw [(h.carries d List.mem_cons_self).tag_eq] at hses
  rcases h.table with ⟨session', hs, haw, -⟩ | ⟨hs, -⟩
  · obtain rfl := Option.some.inj (hs.symm.trans hses)
    exact ⟨hs, haw⟩
  · rw [hs] at hses
    exact absurd hses (by simp)

/-- **A Data-Out that is taken.** What is sent afterwards, and what becomes of
the R2T session, is left open. -/
theorem of_delivered (hB : T.backend.Stores medium)
    (h : Assembling T medium m₀ q payload tag (d :: rest) c) {session session' : R2tSession}
    (hses : c.ses.getR2tSesion d.tag = some session) {c₁ : Conn β}
    (hdel : Delivered T c d session session' c₁) (hext : c.Extends c')
    (hdisk : c'.scsi.disk = c₁.scsi.disk)
    (htable : (∃ session, c'.ses.getR2tSesion tag = some session ∧ Awaits q rest session ∧
        rest ≠ []) ∨
      c'.ses.getR2tSesion tag = none ∧ Extent.total (rest.map Pdu.extent) = 0) :
    Assembling T medium m₀ q payload tag rest c' := by
  obtain ⟨-, haw⟩ := h.awaits hses
  have h_size : c'.scsi.size T = c₁.scsi.size T := by
    rw [Scsi.size, Scsi.getSizeInBlocks, hdisk]
    rfl
  cases hdel with
  | empty hd =>
    refine h.next hext ?_ h_size htable
    rw [hdisk, hd, Medium.store_nil]
    rfl
  | data hd halign hwritten hsync =>
    -- the data lies inside the command, and so inside the device
    have h_in := (h.carries d List.mem_cons_self).inside hd
    rw [h.length] at h_in
    obtain ⟨h_med, h_size'⟩ := writtenDataOut_medium hB (n := q.nBlocks.toNat) haw.isWriteSame
      halign h_in (by rw [haw.bufferLba]; exact h.inside) hwritten
    obtain ⟨h_smed, h_ssize⟩ :=
      syncedIf_medium hB session.fua (writtenDataOut T c d session).2
    rw [haw.bufferLba] at h_med
    exact h.next hext (by rw [hdisk, h_smed, h_med]) (by rw [h_size, h_ssize, h_size']) htable

/-- **Every Data-Out of the delivery keeps the invariant.** By cases on how its
handling ends; with nothing failing it is taken, and its piece of the payload is
stored. -/
theorem step (hB : T.backend.Stores medium)
    (h : Assembling T medium m₀ q payload tag (d :: rest) c) (hc : NoFailure c c')
    (hstep : DataOutOutcome T c d c') : Assembling T medium m₀ q payload tag rest c' := by
  have h_d := h.carries d List.mem_cons_self
  have h_ext := hstep.extends
  cases hstep with
  | unknown hses =>
    -- nothing is missing, so the PDU is empty
    rw [h_d.tag_eq] at hses
    rcases h.table with ⟨session, hs, -, -⟩ | ⟨-, htot⟩
    · rw [hs] at hses
      exact absurd hses (by simp)
    · have hd : d.data = [] := by
        rw [List.map_cons, Extent.total_cons] at htot
        exact List.eq_nil_of_length_eq_zero (by change d.data.length + _ = 0 at htot; omega)
      exact h.next_of_empty h_ext hd rfl rfl (.inr hses)
  | refused hses hbad =>
    rcases hbad with ⟨hd, hF⟩ | ⟨-, halign⟩
    · exact h.next_of_empty h_ext hd rfl rfl (.inl (h.rest_ne_nil hF))
    · exact absurd h_d.aligned halign
  | @writeFailed session hses hd halign hwritten =>
    -- the device is not reserved, so a backend call has failed
    obtain ⟨evs, ht⟩ := transfers_writtenDataOut (T := T) c d session
    rcases ht.result with h_ok | h_locked | h_general
    · exact absurd h_ok hwritten
    · exact absurd (ht.locked h_locked) h.unlocked
    · exact absurd h_general
        (hc.not_failGeneral (.receive c d) ht c.ses (.emit _ _))
  | syncFalse hses hd halign hwritten hfua hsync =>
    rw [(h.awaits hses).2.fua] at hfua
    exact absurd hfua (by simp)
  | @delivered session session' _ hses hd hdel hF =>
    have h_get := hdel.getR2tSesion hses
    rw [h_d.tag_eq] at h_get
    exact h.of_delivered hB hses hdel hdel.extends rfl
      (.inl ⟨session', h_get, (h.awaits hses).2.delivered hdel, h.rest_ne_nil hF⟩)
  | @finished session session' c₁ hses hdel hF =>
    have h_get := hdel.getR2tSesion hses
    have h_aw := (h.awaits hses).2.delivered hdel
    have h_left := h_aw.bytesLeft
    refine h.of_delivered hB hses hdel h_ext (closeBatch_disk _ _ _) ?_
    by_cases hz : session'.bytesLeft = 0
    · refine .inr ⟨?_, ?_⟩
      · rw [← h_d.tag_eq]
        exact getR2tSesion_closeBatch_of_zero _ _ hz
      · rw [← h_left, hz]
        rfl
    · refine .inl ⟨session', ?_, h_aw, ?_⟩
      · rw [closeBatch_ses_of_ne_zero _ _ hz, ← h_d.tag_eq]
        exact hdel.getR2tSesion hses
      · rintro rfl
        exact hz (UInt32.toNat_inj.mp h_left)

end Assembling

/-! ### Deliveries that get nowhere -/

variable (T) in
/-- There is an R2T session, but its Data-Outs are not taken: the device is
reserved by another session, or the code takes the result of the sync for a
failure. -/
structure Stuck (tag : UInt32) (session : R2tSession) (c : Conn β) : Prop where
  session_eq : c.ses.getR2tSesion tag = some session
  bytesLeft : session.bytesLeft ≠ 0
  isWriteSame : session.isWriteSame = false
  why : c.scsi.lockingStatus T = .lockedOther ∨ session.fua = true

/-- A stuck R2T session takes no data: behind a reservation the write fails, and
with FUA the sync that succeeds is taken for a failure. -/
theorem Stuck.not_data {tag : UInt32} {session : R2tSession} {c c' : Conn β} {d : Pdu}
    (h : Stuck T tag session c) (hc : NoFailure c c') {ses : Session}
    (hext : Conn.Extends
      { scsi := syncedIf T session.fua (writtenDataOut T c d session).2, ses := ses } c')
    (hwritten : (writtenDataOut T c d session).1 = .ok)
    (hsync : session.fua = true →
      ((writtenDataOut T c d session).2.sync T).1.eqFalse = false) : False := by
  have h_unlocked : c.scsi.lockingStatus T ≠ .lockedOther := by
    rw [writtenDataOut_of_write h.isWriteSame] at hwritten
    exact Scsi.unlocked_of_write_ok (s := (c.receive d).scsi) hwritten
  rcases h.why with h_locked | h_fua
  · exact h_unlocked h_locked
  · -- the sync succeeds, and success is the enumerator that equals `false`
    have h_written := extends_writtenDataOut (T := T) c d session c.ses
    simp only [syncedIf, h_fua, if_true] at hext
    have h_ok := hc.sync_ok h_written (by rw [h_written.lockingStatus]; exact h_unlocked) ses hext
    have := hsync h_fua
    rw [h_ok] at this
    exact absurd this (by decide)

/-- **A stuck R2T session stays stuck.** Behind a reservation the write of a
Data-Out fails, and with FUA the sync that works is taken for a failure; neither
changes the session. -/
theorem Stuck.step {session : R2tSession} {c c' : Conn β} {d : Pdu}
    (h : Stuck T d.tag session c) (hc : NoFailure c c') (hstep : DataOutOutcome T c d c') :
    Stuck T d.tag session c' := by
  have h_ext := hstep.extends
  -- an outcome that leaves the sessions alone leaves this one stuck
  have h_stay : c'.ses = c.ses → Stuck T d.tag session c' := fun hses =>
    { session_eq := by rw [hses]; exact h.session_eq
      bytesLeft := h.bytesLeft
      isWriteSame := h.isWriteSame
      why := by rw [h_ext.lockingStatus]; exact h.why }
  cases hstep with
  | unknown hses => exact h_stay rfl
  | refused hses hbad => exact h_stay rfl
  | writeFailed hses hd halign hwritten => exact h_stay rfl
  | syncFalse hses hd halign hwritten hfua hsync => exact h_stay rfl
  | delivered hses hd hdel hF =>
    obtain rfl := Option.some.inj (h.session_eq.symm.trans hses)
    cases hdel with
    | empty hd => exact h_stay rfl
    | data hd halign hwritten hsync => exact (h.not_data hc (.refl _) hwritten hsync).elim
  | finished hses hdel hF =>
    obtain rfl := Option.some.inj (h.session_eq.symm.trans hses)
    cases hdel with
    -- the batch ends, but `bytes_left` is not zero, so the session stays
    | empty hd => exact h_stay (closeBatch_ses_of_ne_zero _ _ h.bytesLeft)
    | data hd halign hwritten hsync =>
      exact (h.not_data hc (extends_closeBatch _ _ _) hwritten hsync).elim

variable (medium) in
/-- There is no R2T session, and the medium is `m`. -/
structure Settled (m : Medium UInt8) (tag : UInt32) (c : Conn β) : Prop where
  none_eq : c.ses.getR2tSesion tag = none
  medium_eq : medium c.scsi.disk = m

/-- **Without an R2T session nothing happens.** -/
theorem Settled.step {m : Medium UInt8} {c c' : Conn β} {d : Pdu}
    (h : Settled medium m d.tag c) (hstep : DataOutOutcome T c d c') :
    Settled medium m d.tag c' := by
  obtain rfl := hstep.eq_receive h.none_eq
  exact ⟨h.none_eq, h.medium_eq⟩

/-! ### Runs of Data-Outs -/

/-- Data-Outs never end in a fault. -/
theorem run_dataOuts_ok (fuel : ℕ) {dos : List Pdu}
    (hops : ∀ d ∈ dos, d.bhs.getOpcode = .scsiDataOut) (c : Conn β) :
    ∃ c', Machine.run (serve T fuel) c dos = .ok c' := by
  refine Machine.run_ok_of_mem (fun d hd s => ?_) c
  obtain ⟨s', hs', -⟩ := serve_dataOut (T := T) fuel s (hops d hd)
  exact ⟨s', hs'⟩

/-- **The rule for runs of Data-Outs without a failure.** What every outcome of
the next Data-Out keeps holds in the end. -/
theorem run_dataOuts {fuel : ℕ} {I : List Pdu → Conn β → Prop}
    (hstep : ∀ d rest c c', I (d :: rest) c → NoFailure c c' → DataOutOutcome T c d c' →
      I rest c')
    {dos : List Pdu} (hops : ∀ d ∈ dos, d.bhs.getOpcode = .scsiDataOut) {c c' : Conn β}
    (hI : I dos c) (hrun : Machine.run (serve T fuel) c dos = .ok c') :
    c.Extends c' ∧ (NoFailure c c' → I [] c') := by
  have h_end := Machine.run_rest_induction
    (I := fun rest s => (∀ d ∈ rest, d.bhs.getOpcode = .scsiDataOut) ∧ c.Extends s ∧
      (NoFailure c s → I rest s)) ?_ dos c c' ⟨hops, .refl c, fun _ => hI⟩ hrun
  · exact h_end.2
  · rintro d rest s s' ⟨hops, hext, hI⟩ hs
    obtain ⟨s'', hs'', h_out⟩ := serve_dataOut (T := T) fuel s (hops d List.mem_cons_self)
    obtain rfl := Except.ok.inj (hs.symm.trans hs'')
    have h_ext := h_out.extends
    refine ⟨fun e he => hops e (List.mem_cons_of_mem d he), hext.trans h_ext, fun hc => ?_⟩
    -- a failure at this step would be one of the whole run
    exact hstep d rest s s' (hI (hc.part (.refl c) hext h_ext)) (hc.part hext h_ext (.refl s'))
      h_out

/-! ### The command -/

namespace Delivery

variable {c : Conn β} {q : Pdu} {payload : Bytes} {dos : List Pdu}

theorem nBytesOf_lt (h : Delivery T c q payload dos) : nBytesOf T q < 2 ^ 32 := by
  rw [← h.expDatLen]
  exact q.bhs.getExpDatLen.toNat_lt

theorem length_le (h : Delivery T c q payload dos) : q.data.length ≤ nBytesOf T q := by
  rw [← h.length]
  exact h.immediate.length_le

/-- The command is not refused. -/
theorem writeCheck_eq_none (h : Delivery T c q payload dos) : writeCheck T c q = none := by
  unfold writeCheck
  rw [Scsi.validateRequest_cdb_eq_none_iff]
  refine ⟨Scsi.validateRequest_of_inRange T c.scsi h.inside, ?_⟩
  have h_write := h.write.write
  have h_protect := h.protect
  unfold Scsi.validateCdb
  cases hop : q.bhs.getCdb.opcode <;>
    simp_all [ScsiOpcode.isWrite, ScsiOpcode.isWriteSame, ScsiOpcode.checksWrProtect]

/-- The command is complete when its immediate data is all the payload. The code
compares the lengths, and the payload is no longer than the command. -/
theorem complete_iff (h : Delivery T c q payload dos) :
    Complete T q ↔ q.data.length = nBytesOf T q := by
  have h_lt := h.nBytesOf_lt
  have h_bs := T.blockSize_pos
  -- the length fits into the `size_t` of either build, so it is compared as it is
  have h_sizeT : T.build.sizeT (nBytesOf T q) = nBytesOf T q := by
    unfold Build.sizeT
    split
    · exact Nat.mod_eq_of_lt h_lt
    · exact Nat.mod_eq_of_lt (by omega)
  unfold Complete
  split
  · next hd =>
    -- without immediate data the command is complete when it has no blocks
    rw [hd, List.length_nil, ← UInt32.toNat_inj]
    unfold nBytesOf Target.nBytes
    constructor
    · intro hn
      rw [hn]
      exact (Nat.zero_mul _).symm
    · intro hn
      exact (Nat.mul_eq_zero.mp hn.symm).resolve_right (by omega)
  · rw [h_sizeT]

/-- Immediate data is not stored when the device is reserved by another session. -/
theorem data_eq_nil (hlocked : c.scsi.lockingStatus T = .lockedOther)
    (hok : (storedImmediate T c q).1 = .ok) : q.data = [] := by
  by_contra hd
  unfold storedImmediate at hok
  rw [Scsi.storeImmediate_of_locked (s := (c.receive q).scsi) hlocked hd] at hok
  exact absurd hok (by simp)

/-- A conflict means that the device is reserved by another session. -/
theorem locked_of_conflict (hstored : (storedImmediate T c q).1 = .failLocked) :
    c.scsi.lockingStatus T = .lockedOther := by
  obtain ⟨evs, ht⟩ :=
    Scsi.transfers_storeImmediate (T := T) (c.receive q).scsi q.lba q.nBlocks q.data
  exact ht.locked hstored

/-- The stored immediate data, on the medium. -/
theorem storedImmediate_medium (hB : T.backend.Stores medium) (h : Delivery T c q payload dos)
    (hok : (storedImmediate T c q).1 = .ok) :
    medium (storedImmediate T c q).2.disk =
        (medium c.scsi.disk).store (q.lba.toNat * T.blockSize) q.data ∧
      (storedImmediate T c q).2.size T = c.scsi.size T :=
  Scsi.storeImmediate_medium hB q.data_lt (s := (c.receive q).scsi) h.inside h.length_le hok

/-- **The start of an assembly.** What came with the command has arrived, and
the R2T session waits for the rest. -/
theorem assembling (hB : T.backend.Stores medium) (h : Delivery T c q payload dos)
    (hunlocked : c.scsi.lockingStatus T ≠ .lockedOther) (hfua : q.fua = false)
    (hok : (storedImmediate T c q).1 = .ok) (hlt : q.data.length < nBytesOf T q) :
    Assembling T medium (medium c.scsi.disk) q payload (commandTag T c q) dos
      (openTransfer T { c with scsi := (storedImmediate T c q).2 } q) := by
  obtain ⟨h_med, h_size⟩ := h.storedImmediate_medium hB hok
  have h_ext := extends_transfer (T := T) c q
  have h_blocks : immediateBlocks T q * T.blockSize ≤ q.data.length := Nat.div_mul_le_self _ _
  have h_total := h.tiles.sum_len
  have h_length := h.length
  obtain ⟨later, h_payload⟩ := h.immediate
  refine
    { carries := h.carries
      final := h.final
      length := h.length
      unlocked := by rw [h_ext.lockingStatus]; exact hunlocked
      inside := ?_
      arrived := ?_
      outside := ?_
      table := .inl ⟨taskOf T q, getR2tSesion_openTransfer h.fresh,
        ⟨?_, taskOf_bufferLba q, hfua, taskOf_isWriteSame q⟩, ?_⟩ }
  · rw [Scsi.size, Scsi.getSizeInBlocks, openTransfer_disk]
    change _ ≤ (storedImmediate T c q).2.size T
    rw [h_size]
    exact h.inside
  · -- a position in no Data-Out is in a whole block of the immediate data
    intro p hp hnot
    have h_p : p < q.data.length := by
      by_contra hge
      obtain ⟨e, he, hmem⟩ := h.tiles.exists_mem.mp ⟨(by omega : _ ≤ p), by omega⟩
      obtain ⟨d, hd, rfl⟩ := List.mem_map.mp he
      exact hnot d hd hmem
    rw [openTransfer_disk, h_med, Medium.Holds, Medium.store_apply_of_lt h_p, ← h_payload,
      List.getElem?_append_left h_p, List.getElem?_eq_getElem h_p]
  · intro a ha
    rw [openTransfer_disk, h_med]
    exact Medium.store_apply_of_notMem (by omega)
  · -- what the R2T asks for is what the Data-Outs carry, and it is not nothing
    rw [toNat_bytesLeft h.nBytesOf_lt, h_total]
  · rintro rfl
    simp at h_total
    omega

/-- **The start of a delivery that gets nowhere**, because of a reservation or
of the FUA bit. The R2T is sent all the same. -/
theorem stuck (h : Delivery T c q payload dos)
    (hwhy : c.scsi.lockingStatus T = .lockedOther ∨ q.fua = true)
    (hlt : q.data.length < nBytesOf T q) :
    Stuck T (commandTag T c q) (taskOf T q)
      (openTransfer T { c with scsi := (storedImmediate T c q).2 } q) := by
  have h_ext := extends_transfer (T := T) c q
  have h_blocks : immediateBlocks T q * T.blockSize ≤ q.data.length := Nat.div_mul_le_self _ _
  refine
    { session_eq := getR2tSesion_openTransfer h.fresh
      bytesLeft := ?_
      isWriteSame := taskOf_isWriteSame q
      why := by rw [h_ext.lockingStatus]; exact hwhy }
  -- with data still to come `bytes_left` is not zero
  intro hz
  have h_left := toNat_bytesLeft h.nBytesOf_lt
  rw [hz, UInt32.toNat_zero] at h_left
  omega

/-- The Data-Outs of the delivery, as PDUs. -/
theorem opcodes (h : Delivery T c q payload dos) : ∀ d ∈ dos, d.bhs.getOpcode = .scsiDataOut :=
  fun d hd => (h.carries d hd).opcode

/-- Without an R2T session the run ends with the medium as it is. -/
theorem run_settled (h : Delivery T c q payload dos) {fuel : ℕ} {m : Medium UInt8}
    {c₁ c' : Conn β} (hI : Settled medium m (commandTag T c q) c₁)
    (hrun : Machine.run (serve T fuel) c₁ dos = .ok c') (hc : NoFailure c₁ c') :
    Settled medium m (commandTag T c q) c' := by
  refine ((run_dataOuts (I := fun rest s => (∀ d ∈ rest, d.tag = commandTag T c q) ∧
    Settled medium m (commandTag T c q) s) ?_ h.opcodes
    ⟨fun d hd => (h.carries d hd).tag_eq, hI⟩ hrun).2 hc).2
  rintro d rest s s' ⟨htags, hI⟩ - hstep
  refine ⟨fun e he => htags e (List.mem_cons_of_mem d he), ?_⟩
  rw [← htags d List.mem_cons_self] at hI ⊢
  exact hI.step hstep

/-- A stuck R2T session is still there in the end. -/
theorem run_stuck (h : Delivery T c q payload dos) {fuel : ℕ} {session : R2tSession}
    {c₁ c' : Conn β} (hI : Stuck T (commandTag T c q) session c₁)
    (hrun : Machine.run (serve T fuel) c₁ dos = .ok c') (hc : NoFailure c₁ c') :
    Stuck T (commandTag T c q) session c' := by
  refine ((run_dataOuts (I := fun rest s => (∀ d ∈ rest, d.tag = commandTag T c q) ∧
    Stuck T (commandTag T c q) session s) ?_ h.opcodes
    ⟨fun d hd => (h.carries d hd).tag_eq, hI⟩ hrun).2 hc).2
  rintro d rest s s' ⟨htags, hI⟩ hc hstep
  refine ⟨fun e he => htags e (List.mem_cons_of_mem d he), ?_⟩
  rw [← htags d List.mem_cons_self] at hI ⊢
  exact hI.step hc hstep

/-- An assembly is complete in the end. -/
theorem run_assembling (hB : T.backend.Stores medium) (h : Delivery T c q payload dos) {fuel : ℕ}
    {m₀ : Medium UInt8} {c₁ c' : Conn β}
    (hI : Assembling T medium m₀ q payload (commandTag T c q) dos c₁)
    (hrun : Machine.run (serve T fuel) c₁ dos = .ok c') (hc : NoFailure c₁ c') :
    Settled medium (m₀.store (q.lba.toNat * T.blockSize) payload) (commandTag T c q) c' := by
  have h_end := (run_dataOuts (I := Assembling T medium m₀ q payload (commandTag T c q))
    (fun d rest s s' hI hc hstep => hI.step hB hc hstep) h.opcodes hI hrun).2 hc
  refine ⟨?_, Medium.eq_store_of_holds (fun p hp => h_end.arrived p hp (by simp)) h_end.outside⟩
  rcases h_end.table with ⟨-, -, -, hne⟩ | ⟨hnone, -⟩
  · exact absurd rfl hne
  · exact hnone

end Delivery

/-! ### The refinement -/

/-- **A WRITE lands exactly when `LandsOn` holds.** Every delivery is taken to
its end without a fault, and if no backend call fails on the way, the payload is
on the medium and the R2T session gone exactly under that condition. -/
theorem write_refines_iff (hB : T.backend.Stores medium) (fuel : ℕ) {c : Conn β} {q : Pdu}
    {payload : Bytes} {dos : List Pdu} (h : Delivery T c q payload dos) :
    ∃ c', Machine.run (serve T fuel) c (q :: dos) = .ok c' ∧
      (NoFailure c c' → (Landed T medium c q payload c' ↔ LandsOn T medium c q payload)) := by
  obtain ⟨c₁, h_serve, h_out⟩ := serve_write (T := T) fuel c h.write
  obtain ⟨c', h_run⟩ := run_dataOuts_ok (T := T) fuel h.opcodes c₁
  refine ⟨c', by rw [Machine.run_cons_ok h_serve, h_run], fun hc => ?_⟩
  have h_ext₁ := h_out.extends
  have h_ext₂ : c₁.Extends c' := (run_dataOuts (I := fun _ _ => True)
    (fun _ _ _ _ _ _ _ => trivial) h.opcodes trivial h_run).1
  have hc₁ : NoFailure c c₁ := hc.part (.refl c) h_ext₁ h_ext₂
  have hc₂ : NoFailure c₁ c' := hc.part h_ext₁ h_ext₂ (.refl c')
  unfold LandsOn
  cases h_out with
  | refused hcheck =>
    rw [h.writeCheck_eq_none] at hcheck
    exact absurd hcheck (by simp)
  | conflict hcheck hstored =>
    -- the immediate data met a reservation: the medium stays as it is
    have h_locked := Delivery.locked_of_conflict hstored
    have hd : q.data ≠ [] := by
      intro hd
      rw [storedImmediate, hd, Scsi.storeImmediate_nil] at hstored
      exact absurd hstored (by simp)
    have h_length := h.length_le
    have h_pos := List.length_pos_of_ne_nil hd
    have h_disk : (storedImmediate T c q).2.disk = c.scsi.disk := by
      rw [storedImmediate, Scsi.storeImmediate_of_locked (s := (c.receive q).scsi) h_locked hd]
      rfl
    have h_start : Settled medium (medium c.scsi.disk) (commandTag T c q)
        (({ c with scsi := (storedImmediate T c q).2 } : Conn β).emit T
          (statusPdu T q errorReservationConflict1 none)) :=
      ⟨h.fresh, congrArg medium h_disk⟩
    have h_end := h.run_settled h_start h_run hc₂
    rw [if_pos h_locked, Landed, h_end.medium_eq]
    constructor
    · rintro ⟨h_med, -⟩
      exact .inr ⟨hd, h_med.symm⟩
    · rintro (hz | ⟨-, h_med⟩)
      · omega
      · exact ⟨h_med.symm, h_end.none_eq⟩
  | failed hcheck hstored =>
    obtain ⟨evs, ht⟩ :=
      Scsi.transfers_storeImmediate (T := T) (c.receive q).scsi q.lba q.nBlocks q.data
    exact absurd hstored (hc₁.not_failGeneral (.receive c q) ht c.ses (.refl _))
  | complete hcheck hstored hcomplete =>
    -- the immediate data is the payload
    have h_len := h.complete_iff.mp hcomplete
    have h_data : q.data = payload := h.immediate.eq_of_length (by rw [h_len, h.length])
    have h_med := (h.storedImmediate_medium hB hstored).1
    have h_smed := (syncedIf_medium hB (q.fua && decide (q.data ≠ []))
      (storedImmediate T c q).2).1
    have h_start : Settled medium
        ((medium c.scsi.disk).store (q.lba.toNat * T.blockSize) payload) (commandTag T c q)
        (({ c with
          scsi := syncedIf T (q.fua && decide (q.data ≠ [])) (storedImmediate T c q).2 } :
          Conn β).emit T (statusPdu T q [] none)) :=
      ⟨h.fresh, h_smed.trans (h_data ▸ h_med)⟩
    have h_end := h.run_settled h_start h_run hc₂
    refine iff_of_true ⟨h_end.medium_eq, h_end.none_eq⟩ ?_
    split
    · next h_locked =>
      rw [Delivery.data_eq_nil h_locked hstored] at h_len
      exact .inl h_len.symm
    · rintro ⟨-, -, hlt⟩
      omega
  | mismatch hcheck hstored hcomplete hlen => exact absurd h.expDatLen.symm hlen
  | transfer hcheck hstored hcomplete hlen =>
    have h_le := h.length_le
    have hlt : q.data.length < nBytesOf T q := by
      rw [h.complete_iff] at hcomplete
      omega
    by_cases hwhy : c.scsi.lockingStatus T = .lockedOther ∨ q.fua = true
    · -- the Data-Outs are not taken, so the R2T session stays
      have h_end := h.run_stuck (h.stuck hwhy hlt) h_run hc₂
      refine iff_of_false ?_ ?_
      · rintro ⟨-, hnone⟩
        exact absurd (h_end.session_eq.symm.trans hnone) (by simp)
      · split
        · next h_locked =>
          rw [Delivery.data_eq_nil h_locked hstored] at hlt ⊢
          simp only [List.length_nil] at hlt
          rintro (hz | ⟨hd, -⟩)
          · omega
          · exact hd rfl
        · next h_unlocked =>
          have h_fua := hwhy.resolve_left h_unlocked
          refine not_not.mpr ⟨?_, h_fua, hlt⟩
          by_contra hop
          rw [h.fua hop] at h_fua
          exact absurd h_fua (by simp)
    · rw [not_or, Bool.not_eq_true] at hwhy
      have h_end := h.run_assembling hB (h.assembling hB hwhy.1 hwhy.2 hstored hlt) h_run hc₂
      refine iff_of_true ⟨h_end.medium_eq, h_end.none_eq⟩ ?_
      rw [if_neg hwhy.1]
      rintro ⟨-, h_fua, -⟩
      rw [hwhy.2] at h_fua
      exact absurd h_fua (by simp)

/-- WRITE(10) of three blocks to address 2, with 20 bytes of immediate data. -/
def Sample.threeBlocks : Pdu :=
  Sample.command 5 48 (Sample.cdb10 0x2a 0 2 3) (Sample.block 1 ++ [2, 2, 2, 2])

/-- What is left of it, the last block first. -/
def Sample.threeBlocksData : List Pdu :=
  [Sample.dataOut 5 32 true (Sample.block 3), Sample.dataOut 5 16 true (Sample.block 2)]

theorem Sample.threeBlocks_delivery :
    Delivery (Sample.target 8) (Sample.conn 8 []) Sample.threeBlocks
      (Sample.block 1 ++ Sample.block 2 ++ Sample.block 3) Sample.threeBlocksData where
  write := ⟨by decide +kernel, by decide +kernel⟩
  fua := by decide +kernel
  protect := by decide +kernel
  inside := by decide +kernel
  expDatLen := by decide +kernel
  length := by decide +kernel
  immediate := by decide +kernel
  carries := by
    intro d hd
    simp only [Sample.threeBlocksData, List.mem_cons, List.not_mem_nil, or_false] at hd
    rcases hd with rfl | rfl
    · exact ⟨by decide +kernel, by decide +kernel, by decide +kernel, by decide +kernel⟩
    · exact ⟨by decide +kernel, by decide +kernel, by decide +kernel, by decide +kernel⟩
  tiles := by decide +kernel
  final := by decide +kernel
  fresh := by decide +kernel

/-- The three blocks land, though they come in another order. -/
theorem write_refines_threeBlocks :
    ∃ c', Machine.run (serve (Sample.target 8) 0) (Sample.conn 8 [])
        (Sample.threeBlocks :: Sample.threeBlocksData) = .ok c' ∧
      Landed (Sample.target 8) Ram.contents (Sample.conn 8 []) Sample.threeBlocks
        (Sample.block 1 ++ Sample.block 2 ++ Sample.block 3) c' := by
  obtain ⟨c', h_run, h_iff⟩ := write_refines_iff (ramBackend_stores 16 _ _ 8) 0
    Sample.threeBlocks_delivery
  have h_eval : (Machine.run (serve (Sample.target 8) 0) (Sample.conn 8 [])
      (Sample.threeBlocks :: Sample.threeBlocksData)).toOption.any
      (fun s => decide (NoFailure (Sample.conn 8 []) s)) = true := by decide +kernel
  obtain ⟨c'', h_run', h_clean⟩ := Machine.exists_ok_of_any h_eval
  obtain rfl := Except.ok.inj (h_run.symm.trans h_run')
  refine ⟨c', h_run, (h_iff h_clean).mpr ?_⟩
  rw [LandsOn, if_neg (by decide +kernel)]
  decide +kernel

/-- WRITE(6) of one block to address `2 ^ 19`, whose data follows in a Data-Out. -/
def Sample.highWrite : Pdu := Sample.command 5 16 (Sample.cdb6 0x0a 8 0 1) [] Pdu.nil_lt

theorem Sample.highWrite_delivery :
    Delivery (Sample.target 0x80001) (Sample.conn 0x80001 []) Sample.highWrite (Sample.block 1)
      [Sample.dataOut 5 0 true (Sample.block 1)] where
  write := ⟨by decide +kernel, by decide +kernel⟩
  fua := by decide +kernel
  protect := by decide +kernel
  inside := by decide +kernel
  expDatLen := by decide +kernel
  length := by decide +kernel
  immediate := by decide +kernel
  carries := by
    intro d hd
    obtain rfl := List.mem_singleton.mp hd
    exact ⟨by decide +kernel, by decide +kernel, by decide +kernel, by decide +kernel⟩
  tiles := by decide +kernel
  final := by decide +kernel
  fresh := by decide +kernel

/-- Its data reaches the backend, which syncs, and is then refused: the R2T
session stays. -/
theorem highWrite_not_landed :
    Delivery (Sample.target 0x80001) (Sample.conn 0x80001 []) Sample.highWrite (Sample.block 1)
        [Sample.dataOut 5 0 true (Sample.block 1)] ∧
      ∃ c', Machine.run (serve (Sample.target 0x80001) 0) (Sample.conn 0x80001 [])
          [Sample.highWrite, Sample.dataOut 5 0 true (Sample.block 1)] = .ok c' ∧
        NoFailure (Sample.conn 0x80001 []) c' ∧
        ¬ Landed (Sample.target 0x80001) Ram.contents (Sample.conn 0x80001 []) Sample.highWrite
          (Sample.block 1) c' := by
  refine ⟨Sample.highWrite_delivery, ?_⟩
  have h_eval : (Machine.run (serve (Sample.target 0x80001) 0) (Sample.conn 0x80001 [])
      [Sample.highWrite, Sample.dataOut 5 0 true (Sample.block 1)]).toOption.any
      (fun s => decide (NoFailure (Sample.conn 0x80001 []) s ∧
        s.ses.getR2tSesion (commandTag (Sample.target 0x80001) (Sample.conn 0x80001 [])
          Sample.highWrite) ≠ none)) = true := by decide +kernel
  obtain ⟨c', h_run, h_clean, h_some⟩ := Machine.exists_ok_of_any h_eval
  exact ⟨c', h_run, h_clean, fun h => h_some h.2⟩

end IscsiTarget
