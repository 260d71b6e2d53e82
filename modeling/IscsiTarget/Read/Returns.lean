import IscsiTarget.Read.Stream

/-!
# READ returns the medium

`Situation` is what a READ meets apart from the contents of the device, and
`ReturnsMedium` says what is expected of the READ there: whatever is on the medium, and
whatever backend it is on, the payloads of the Data-Ins are the bytes of the range, up to
the expected data transfer length.

`serve_read` takes the command through the check, the response set and the streaming loop.
`returnsMedium_iff` then reads the refinement of the loop as a condition on the lengths:
every Data-In but the last has to hold whole blocks, and the last one whole blocks or less
than one.
-/

namespace IscsiTarget

/-! ### The property -/

/-- What a READ meets, apart from the contents of the device: the settings, the
shape and the size of the device, the reservation, and the state of the session. -/
structure Situation where
  setup : Setup
  blockSize : ℕ
  blockSize_pos : 0 < blockSize
  blockSize_lt : blockSize < 2 ^ 32
  size : UInt64
  lockedBy : Option ℕ := none
  history : List Event := []
  ses : Session

namespace Situation

variable {β : Type} (S : Situation)

/-- The connection, over a backend in a given state. -/
def conn (d : β) : Conn β :=
  { scsi := { disk := d, lockedBy := S.lockedBy, history := S.history }, ses := S.ses }

/-- A target in this situation: only which sends succeed is left open. -/
structure Hosts (T : Target β) (d : β) : Prop where
  setup : T.toSetup = { S.setup with send := T.send }
  blockSize : T.blockSize = S.blockSize
  size : T.backend.getSizeInBlocks d = S.size

/-- The READ commands inside the device, in any of the four forms and of one
block at least. -/
structure IsRead (q : Pdu) : Prop where
  opcode : q.bhs.getOpcode = .scsiCmd
  read : q.bhs.getCdb.opcode = .read6 ∨ q.bhs.getCdb.opcode = .read10 ∨
    q.bhs.getCdb.opcode = .read12 ∨ q.bhs.getCdb.opcode = .read16
  blocks : 0 < q.bhs.getCdb.range.2.toNat
  inside : q.bhs.getCdb.range.1.toNat + q.bhs.getCdb.range.2.toNat ≤ S.size.toNat

/-- The bytes of the range, up to the expected data transfer length. -/
def wanted (q : Pdu) : ℕ :=
  min (q.bhs.getCdb.range.2.toNat * S.blockSize) q.bhs.getExpDatLen.toNat

/-- **The READ returns the medium**, on every backend and for all contents, as
long as all reads and sends succeed. -/
def ReturnsMedium (q : Pdu) : Prop :=
  ∀ (β : Type) (T : Target β) (medium : β → Medium UInt8) (d : β), S.Hosts T d →
    T.backend.Stores medium → ∃ turns, ∀ fuel ≥ turns, ∃ c' evs,
      serve T fuel (S.conn d) q = .ok c' ∧ (S.conn d).scsi.Does c'.scsi evs ∧
      ((∀ e ∈ evs, e.Succeeds) → dataIns evs =
        (medium d).slice (q.bhs.getCdb.range.1.toNat * S.blockSize) (S.wanted q))

/-! ### The condition -/

/-- The command sets RDPROTECT bits, and is refused for it. -/
def RdProtected (cdb : Cdb) : Prop :=
  (cdb.opcode = .read10 ∨ cdb.opcode = .read16) ∧ getElem cdb 1 Cdb.lt1 >>> 5 ≠ 0

instance (cdb : Cdb) : Decidable (RdProtected cdb) := by
  unfold RdProtected
  infer_instance

/-- Another session holds the reservation. -/
def LockedOther : Prop :=
  S.setup.build.threads = true ∧ S.lockedBy ≠ none ∧ S.lockedBy ≠ some S.setup.thread

instance : Decidable S.LockedOther := by
  unfold LockedOther
  infer_instance

/-- `buffer_n`, once the command has arrived. -/
def bufferN (q : Pdu) : ℕ :=
  if S.setup.build.arduino then
    max S.setup.build.maxDataSegmentSize ((S.setup.freeHeap (S.history ++ [.received q])).toNat / 2)
  else S.setup.build.maxDataSegmentSize

theorem bufferN_pos (q : Pdu) : 0 < S.bufferN q := by
  have h := S.setup.build.maxDataSegmentSize_pos
  unfold bufferN
  split <;> omega

/-- The most one Data-In can carry. -/
def cap (q : Pdu) : ℕ := min S.ses.maxSegLen.toNat (S.bufferN q)

/-- The bytes that are streamed: the product is kept in 32 bits. -/
def streamed (q : Pdu) : ℕ :=
  min (q.bhs.getCdb.range.2.toNat * S.blockSize % 2 ^ 32) q.bhs.getExpDatLen.toNat

/-- What the READ delivers from a medium. -/
def delivered (q : Pdu) (m : Medium UInt8) : Bytes :=
  if RdProtected q.bhs.getCdb ∨ S.LockedOther then []
  else Segments.pieces m S.blockSize q.bhs.getCdb.range.1.toNat
    (Segments.cut (S.cap q) (S.streamed q))

/-- Every Data-In but the last holds whole blocks, the last one whole blocks or
less than one. -/
def BlockAligned (q : Pdu) : Prop :=
  (S.wanted q ≤ S.cap q ∨ S.blockSize ∣ S.cap q) ∧
    (Segments.lastLength (S.cap q) (S.wanted q) < S.blockSize ∨
      S.blockSize ∣ Segments.lastLength (S.cap q) (S.wanted q))

/-- The READs that return the medium. -/
def Readable (q : Pdu) : Prop :=
  q.bhs.getExpDatLen = 0 ∨
    (¬ RdProtected q.bhs.getCdb ∧ ¬ S.LockedOther ∧ S.streamed q = S.wanted q ∧ S.BlockAligned q)

end Situation

/-! ### From the command to the loop -/

variable {β : Type} {T : Target β} {medium : β → Medium UInt8} {S : Situation} {q : Pdu}

/-- The device is as large as the situation says. -/
theorem Situation.Hosts.size_conn {d : β} (h : S.Hosts T d) :
    (S.conn d).scsi.size T = S.size.toNat :=
  congrArg UInt64.toNat h.size

theorem Situation.Hosts.lockedOther_iff {d : β} (h : S.Hosts T d) :
    (S.conn d).scsi.lockingStatus T = .lockedOther ↔ S.LockedOther := by
  have h_threads : T.build.threads = S.setup.build.threads := by rw [h.setup]
  have h_thread : T.thread = S.setup.thread := by rw [h.setup]
  unfold Scsi.lockingStatus Situation.LockedOther Situation.conn
  rw [h_threads, h_thread]
  -- no holder, this thread, or another
  cases S.lockedBy with
  | none => simp
  | some id =>
    by_cases hid : id = S.setup.thread
    · cases S.setup.build.threads <;> simp [hid]
    · simp [hid]

/-- A READ inside the device passes the check unless RDPROTECT is set. -/
theorem validateRequest_read {s : Scsi β} (hsize : s.size T = S.size.toNat) (h : S.IsRead q) :
    s.validateRequest T q.bhs.getCdb.range.1 q.bhs.getCdb.range.2 (some q.bhs.getCdb) =
      if Situation.RdProtected q.bhs.getCdb then some errorInvalidField else none := by
  have h_range : s.validateRequest T q.bhs.getCdb.range.1 q.bhs.getCdb.range.2 none = none :=
    Scsi.validateRequest_of_inRange T s (by rw [hsize]; exact h.inside)
  rw [Scsi.validateRequest_of_range T s h_range]
  unfold Scsi.validateCdb Situation.RdProtected
  rcases h.read with hr | hr | hr | hr <;>
    simp [hr, ScsiOpcode.isWriteSame, ScsiOpcode.checksWrProtect]

/-- `read_` refuses the command, or hands out the place on the medium. Of a READ
inside the device it refuses only those with RDPROTECT bits. -/
theorem read_of_isRead {s : Scsi β} (hsize : s.size T = S.size.toNat) (h : S.IsRead q) :
    s.read_ T q.bhs.getCdb =
      { amountOfDataExpected := some (UInt64.ofNat (T.nBytes q.bhs.getCdb.range.2))
        senseData := if Situation.RdProtected q.bhs.getCdb then errorInvalidField else []
        location :=
          if Situation.RdProtected q.bhs.getCdb then {}
          else { lba := q.bhs.getCdb.range.1, nSectors := q.bhs.getCdb.range.2 } } := by
  have h_pos : q.bhs.getCdb.range.2 ≠ 0 := by
    intro h0
    exact absurd h.blocks (by simp [h0])
  unfold Scsi.read_
  simp only [validateRequest_read hsize h]
  -- the protection bits are all that can be refused, the range is inside
  by_cases hp : Situation.RdProtected q.bhs.getCdb
  · simp only [if_pos hp]
  · simp only [if_neg hp, if_neg h_pos]

/-- The answer of `scsi::send`. -/
theorem send_read {s : Scsi β} (h : S.IsRead q) (fuel : ℕ) (lun : UInt64) (data : Bytes) :
    s.send T fuel lun q.bhs.getCdb data = .ok (s.read_ T q.bhs.getCdb, s) := by
  unfold Scsi.send
  rcases h.read with hr | hr | hr | hr <;> rw [hr]

/-- A response set with nothing but a place to stream from. `get_response`
builds no PDU then. -/
theorem scsiCmdGetResponse_of_location {fuel : ℕ} {c : Conn β} {reply : ScsiResponse}
    {scsi' : Scsi β}
    (hsend : c.scsi.send T fuel q.bhs.getLunNr q.bhs.getCdb q.data = .ok (reply, scsi'))
    (htype : reply.type = .asIs) (hsense : reply.senseData = [])
    (hinline : reply.inlineData = none) (hloc : reply.location.nSectors > 0) :
    scsiCmdGetResponse T fuel c q =
      .ok (some { responses := [], toStream := some reply.location },
        { c with scsi := scsi' }) := by
  have h_status : statusReply T { c with scsi := scsi' } q.bhs reply =
      .ok (none, { c with scsi := scsi' }, true) := by
    simp [statusReply, htype, hsense]
  unfold scsiCmdGetResponse
  rw [hsend]
  simp [h_status, hinline, hloc]

/-- A reject can be made of a SCSI Command, or the handler goes on. It is no
Data-In. -/
theorem buildReject_some (q : Pdu) (ifr : FailReason) :
    buildReject T (some q) ifr = .skipped ∨
      ∃ p, buildReject T (some q) ifr = .built p ∧ ∀ ok, (Event.sent p ok).dataIn = [] := by
  unfold buildReject generateRejectPdu
  by_cases h : ifr = .ioError
  · exact .inr ⟨_, if_pos h, fun _ => rfl⟩
  · simp only [if_neg h]
    cases q.get with
    | none => exact .inl rfl
    | some raw => exact .inr ⟨_, rfl, fun _ => rfl⟩

/-- The handler adds no data. -/
theorem replyToFailure_quiet (c : Conn β) (q : Pdu) (ifr : FailReason) :
    ∃ r c' evs, replyToFailure T c (some q) ifr = .ok (r, c') ∧ c.scsi.Does c'.scsi evs ∧
      dataIns evs = [] ∧ ((∀ history, T.send history = true) → ∀ e ∈ evs, e.Succeeds) := by
  by_cases h : ifr ≠ .ok ∧ ifr ≠ .connection
  swap
  · exact ⟨_, c, [], by rw [replyToFailure, if_neg h], .refl _, rfl, by simp⟩
  rcases buildReject_some (T := T) q ifr with hb | ⟨p, hb, hp⟩
  · exact ⟨.skipped, c, [], by rw [replyToFailure, if_pos h, hb], .refl _, rfl, by simp⟩
  · refine ⟨.sent (T.send c.scsi.history), c.emit T p, [.sent p (T.send c.scsi.history)], ?_,
      Scsi.does_note _, by simp [hp], fun hsend => by simp [Event.Succeeds, hsend]⟩
    rw [replyToFailure, if_pos h, hb]
    rfl

/-- From the place on the medium to the end of the command: what is left is the
streaming, and what the handler makes of its end. -/
theorem serve_of_stream {fuel : ℕ} {c c' : Conn β} {loc : DataDescriptor} {ifr : FailReason}
    (hop : q.bhs.getOpcode = .scsiCmd)
    (hget : scsiCmdGetResponse T fuel (c.receive q) q =
      .ok (some { responses := [], toStream := some loc }, c.receive q))
    (hstream : streamData T fuel .ok (c.receive q) q.bhs loc = .ok (ifr, c')) :
    serve T fuel c q = (replyToFailure T c' (some q) ifr).map (·.2) := by
  have h_push : pushResponse T fuel c q = .ok (ifr, c') := by
    have h_get : getResponse T fuel { c with scsi := c.scsi.note (.received q) } q =
        .ok (some { responses := [], toStream := some loc }, c.receive q) := by
      rw [getResponse, hop]
      exact hget
    rw [pushResponse, if_neg (by simp [hop]), h_get]
    exact hstream
  rw [serve, h_push]

/-- The command is served, and if all goes well the initiator gets `data`. -/
def Delivers (T : Target β) (fuel : ℕ) (c : Conn β) (q : Pdu) (data : Bytes) : Prop :=
  ∃ c' evs, serve T fuel c q = .ok c' ∧ c.scsi.Does c'.scsi evs ∧
    ((∀ e ∈ evs, e.Succeeds) → dataIns evs = data) ∧
    ∀ good, T.Reliable good → good c.scsi.disk → ∀ e ∈ evs, e.Succeeds

/-- What is streamed is what is delivered: the payloads of the Data-Ins, one
after the other. Nothing else that is sent for a READ has data in it. -/
theorem Delivers.of_stream {fuel : ℕ} {c c' : Conn β} {loc : DataDescriptor} {ifr : FailReason}
    {evs : List Event} {data : Bytes} (hop : q.bhs.getOpcode = .scsiCmd)
    (hget : scsiCmdGetResponse T fuel (c.receive q) q =
      .ok (some { responses := [], toStream := some loc }, c.receive q))
    (hstream : streamData T fuel .ok (c.receive q) q.bhs loc = .ok (ifr, c'))
    (hdoes : (c.receive q).scsi.Does c'.scsi evs)
    (hdata : (∀ e ∈ evs, e.Succeeds) → dataIns evs = data)
    (hgood : ∀ good, T.Reliable good → good c.scsi.disk → ∀ e ∈ evs, e.Succeeds) :
    Delivers T fuel c q data := by
  obtain ⟨r, c'', evs', h_reply, h_does, h_none, h_ok⟩ := replyToFailure_quiet (T := T) c' q ifr
  -- the PDU, what is streamed, and what the handler adds to it
  refine ⟨c'', ([.received q] ++ evs) ++ evs', ?_,
    ((Scsi.does_note _).trans hdoes).trans h_does, fun h => ?_, fun good hT hd e he => ?_⟩
  · rw [serve_of_stream hop hget hstream, h_reply]
    rfl
  · rw [dataIns_append, dataIns_append, h_none, List.append_nil,
      hdata fun e he => h e (by simp [he])]
    rfl
  · -- a reliable target: the PDU has come, the stream is good, and there is no failure to answer
    simp only [List.mem_append, List.mem_singleton] at he
    rcases he with (rfl | he) | he
    · trivial
    · exact hgood good hT hd e he
    · exact h_ok hT.send e he

/-- A READ with RDPROTECT bits gets sense data, and no data of the medium at
all. -/
theorem delivers_of_rdProtected {d : β} (hT : S.Hosts T d) (h : S.IsRead q)
    (hp : Situation.RdProtected q.bhs.getCdb) (fuel : ℕ) :
    Delivers T fuel (S.conn d) q [] := by
  have h_send := send_read (T := T) (s := ((S.conn d).receive q).scsi) h fuel q.bhs.getLunNr
    q.data
  rw [read_of_isRead (s := ((S.conn d).receive q).scsi) hT.size_conn h] at h_send
  simp only [if_pos hp] at h_send
  have h_serve := @serve_of_reply _ T _ _ _ h.opcode _ _ h_send rfl rfl
    (some (.scsiResponse (.set T q.bhs errorInvalidField none none))) ((S.conn d).receive q) true
    rfl _ rfl (by simp [Reply.single])
  refine ⟨_, _, h_serve, (Scsi.does_note _).trans (Scsi.does_note _), fun _ => by
    simp [Event.dataIn], fun good hgood _ => ?_⟩
  simp [Event.Succeeds, hgood.send]

/-- The response set of a READ that is not refused: the place and the number of
blocks it has asked for. -/
theorem getResponse_read {d : β} (hT : S.Hosts T d) (h : S.IsRead q)
    (hp : ¬ Situation.RdProtected q.bhs.getCdb) (fuel : ℕ) :
    scsiCmdGetResponse T fuel ((S.conn d).receive q) q =
      .ok (some
        { responses := []
          toStream := some { lba := q.bhs.getCdb.range.1, nSectors := q.bhs.getCdb.range.2 } },
        (S.conn d).receive q) := by
  have h_send := send_read (T := T) (s := ((S.conn d).receive q).scsi) h fuel q.bhs.getLunNr
    q.data
  rw [read_of_isRead (s := ((S.conn d).receive q).scsi) hT.size_conn h] at h_send
  simp only [if_neg hp] at h_send
  have h_loc : q.bhs.getCdb.range.2 > 0 := by
    rw [gt_iff_lt, UInt32.lt_iff_toNat_lt]
    exact h.blocks
  have h_get := scsiCmdGetResponse_of_location h_send rfl rfl rfl (by dsimp only; exact h_loc)
  exact h_get

/-- The parameters of the loop, in the situation. -/
def Situation.params (S : Situation) (q : Pdu) : StreamParams where
  replyTo := q.bhs
  scsiHas := UInt32.ofNat (q.bhs.getCdb.range.2.toNat * S.blockSize)
  iscsiWants := q.bhs.getExpDatLen
  bufferN := S.bufferN q

theorem Situation.left_params (S : Situation) (q : Pdu) : (S.params q).left 0 = S.streamed q := by
  have h_min (a b : UInt32) : (min a b).toNat = min a.toNat b.toNat := by
    change (if a ≤ b then a else b).toNat = _
    split
    · next h => rw [min_eq_left (UInt32.le_iff_toNat_le.mp h)]
    · next h => rw [min_eq_right (UInt32.le_iff_toNat_le.mp (UInt32.le_of_lt (UInt32.not_le.mp h)))]
  rw [StreamParams.left, StreamParams.offsetEnd, h_min, streamed]
  simp [params, UInt32.toNat_ofNat']

/-- `streamData` in the situation: whether it begins to stream, and with which
parameters, depends on the situation alone. -/
theorem streamData_of_hosts {d : β} (hT : S.Hosts T d) (fuel : ℕ) :
    streamData T fuel .ok ((S.conn d).receive q) q.bhs
        { lba := q.bhs.getCdb.range.1, nSectors := q.bhs.getCdb.range.2 } =
      if (S.params q).offsetEnd = 0 then
        .ok (sendReason (T.send (S.history ++ [.received q])),
          ((S.conn d).receive q).emit T (.scsiResponse (.set T q.bhs []
            (residualOf (S.params q).scsiHas.toNat (S.params q).iscsiWants.toNat) none)))
      else streamLoop T (S.params q) fuel .ok 0 q.bhs.getCdb.range.1 ((S.conn d).receive q) := by
  have h_bytes : T.nBytes q.bhs.getCdb.range.2 = q.bhs.getCdb.range.2.toNat * S.blockSize := by
    rw [Target.nBytes, hT.blockSize]
  -- the buffer depends on the setup and on the trace, and not on the medium
  have h_buffer : bufferN T ((S.conn d).receive q).scsi.history = S.bufferN q := by
    have h_build : T.build = S.setup.build := by rw [hT.setup]
    have h_heap : T.freeHeap = S.setup.freeHeap := by rw [hT.setup]
    unfold IscsiTarget.bufferN Situation.bufferN
    rw [h_build, h_heap]
    rfl
  unfold streamData
  simp only [h_bytes, h_buffer]
  rfl

/-- **What a READ delivers.** If all goes well, the pieces of the range, cut at
the most one Data-In can carry; nothing if the command is refused or stopped by
a reservation. -/
theorem serve_read (hB : T.backend.Stores medium) {d : β} (hT : S.Hosts T d) (h : S.IsRead q)
    (hseg : 0 < S.ses.maxSegLen.toNat) {fuel : ℕ} (hfuel : 2 ^ 32 ≤ fuel) :
    Delivers T fuel (S.conn d) q (S.delivered q (medium d)) := by
  by_cases hp : Situation.RdProtected q.bhs.getCdb
  · rw [Situation.delivered, if_pos (.inl hp)]
    exact delivers_of_rdProtected hT h hp fuel
  have h_get := getResponse_read hT h hp fuel
  have h_stream := streamData_of_hosts (T := T) (q := q) hT fuel
  have h_left := S.left_params q
  have h_lt : S.streamed q < 2 ^ 32 :=
    (min_le_right _ _).trans_lt (q.bhs.getExpDatLen).toNat_lt
  -- the answer is streamed: by what there is to stream, and by who holds the reservation
  by_cases h_end : (S.params q).offsetEnd = 0
  · -- nothing to stream
    rw [if_pos h_end] at h_stream
    refine .of_stream h.opcode h_get h_stream (Scsi.does_note _) (fun _ => ?_)
      fun good hgood _ => by simp [Event.Succeeds, hgood.send]
    have h_zero : S.streamed q = 0 := by
      rw [← h_left, StreamParams.left, h_end]
      rfl
    rw [Situation.delivered, h_zero, Segments.cut_zero]
    simp [Event.dataIn, Segments.pieces]
  rw [if_neg h_end] at h_stream
  by_cases hl : S.LockedOther
  · -- the reservation stops the first read
    have h_more : 0 < (S.params q).offsetEnd := by
      rw [UInt32.lt_iff_toNat_lt]
      exact Nat.pos_of_ne_zero fun h0 => h_end (UInt32.toNat_inj.mp h0)
    obtain ⟨c', h_loop, h_same⟩ := streamLoop_locked (T := T) (c := (S.conn d).receive q)
      (hT.lockedOther_iff.mpr hl) h_more (n := fuel) (by omega) q.bhs.getCdb.range.1
    rw [h_loop] at h_stream
    refine .of_stream h.opcode h_get h_stream (by rw [h_same]; exact .refl _) (fun _ => ?_)
      (by simp)
    rw [Situation.delivered, if_pos (.inr hl)]
    rfl
  · -- the loop reads inside the range of the command, and that lies on the device
    have h_cap : 0 < min S.ses.maxSegLen.toNat (S.params q).bufferN :=
      lt_min hseg (S.bufferN_pos q)
    have h_inside : q.bhs.getCdb.range.1.toNat * T.blockSize + (S.params q).left 0 ≤
        ((S.conn d).receive q).scsi.size T * T.blockSize := by
      have h_le : S.streamed q ≤ q.bhs.getCdb.range.2.toNat * S.blockSize :=
        (min_le_left _ _).trans (Nat.mod_le _ _)
      have h_size : ((S.conn d).receive q).scsi.size T = S.size.toNat := hT.size_conn
      rw [h_left, h_size, hT.blockSize]
      calc q.bhs.getCdb.range.1.toNat * S.blockSize + S.streamed q
          ≤ (q.bhs.getCdb.range.1.toNat + q.bhs.getCdb.range.2.toNat) * S.blockSize := by
            rw [Nat.add_mul]
            omega
        _ ≤ S.size.toNat * S.blockSize := Nat.mul_le_mul_right _ h.inside
    obtain ⟨ifr, c', evs, h_loop, h_does, h_data, h_good⟩ := streamLoop_delivers hB h_cap fuel
      0 q.bhs.getCdb.range.1 ((S.conn d).receive q) rfl
      (fun h' => hl (hT.lockedOther_iff.mp h')) h_inside (by omega)
    rw [h_loop] at h_stream
    refine .of_stream h.opcode h_get h_stream h_does (fun hevs => ?_) h_good
    rw [h_data hevs, h_left, Situation.delivered, if_neg (not_or.mpr ⟨hp, hl⟩), hT.blockSize]
    rfl

/-! ### The condition -/

namespace Situation

/-- The delivered bytes are the wanted ones, whatever they are, for the commands
of `Readable`. -/
theorem delivered_iff (h : S.IsRead q) (hseg : 0 < S.ses.maxSegLen.toNat) :
    (∀ m, S.delivered q m = m.slice (q.bhs.getCdb.range.1.toNat * S.blockSize) (S.wanted q)) ↔
      S.Readable q := by
  have h_cap : 0 < S.cap q := lt_min hseg (S.bufferN_pos q)
  have h_total : 0 < q.bhs.getCdb.range.2.toNat * S.blockSize :=
    Nat.mul_pos h.blocks S.blockSize_pos
  unfold Readable
  by_cases h_len : q.bhs.getExpDatLen = 0
  · -- nothing is wanted
    have h_wanted : S.wanted q = 0 := by simp [wanted, h_len]
    have h_streamed : S.streamed q = 0 := by simp [streamed, h_len]
    refine iff_of_true (fun m => ?_) (.inl h_len)
    rw [delivered, h_wanted, h_streamed, Segments.cut_zero]
    split <;> rfl
  have h_wanted : 0 < S.wanted q := by
    refine lt_min h_total (Nat.pos_of_ne_zero fun h0 => h_len ?_)
    exact UInt32.toNat_inj.mp h0
  rw [or_iff_right h_len]
  by_cases h_refused : RdProtected q.bhs.getCdb ∨ S.LockedOther
  · -- nothing is delivered
    refine iff_of_false (fun hall => ?_)
      fun hc => h_refused.elim hc.1 hc.2.1
    have h_length := congrArg List.length (hall fun _ => 0)
    rw [delivered, if_pos h_refused, Medium.length_slice] at h_length
    exact absurd h_length (by simp; omega)
  have h_pieces (m : Medium UInt8) : S.delivered q m =
      Segments.pieces m S.blockSize q.bhs.getCdb.range.1.toNat
        (Segments.cut (S.cap q) (S.streamed q)) := if_neg h_refused
  simp only [h_pieces]
  by_cases h_same : S.streamed q = S.wanted q
  swap
  · -- the length is already another one
    refine iff_of_false (fun hall => h_same ?_) fun hc => h_same hc.2.2.1
    have h_length := congrArg List.length (hall fun _ => 0)
    rwa [Segments.length_pieces, Segments.sum_cut, Medium.length_slice] at h_length
  -- the length is right, so that only the place of the pieces is left
  rw [h_same]
  have : Nontrivial UInt8 := ⟨0, 1, by decide⟩
  have h_iff := @Segments.pieces_eq_slice_iff UInt8 _ _ _ S.blockSize_pos _
    (fun len hlen => Segments.pos_of_mem_cut (n := S.wanted q) h_cap hlen)
    q.bhs.getCdb.range.1.toNat
  rw [Segments.sum_cut] at h_iff
  rw [h_iff, Segments.aligned_cut_iff h_cap]
  obtain ⟨h_protect, h_lock⟩ := not_or.mp h_refused
  exact ⟨fun hc => ⟨h_protect, h_lock, rfl, hc⟩, fun hc => hc.2.2.2⟩

/-- A target in the situation on which nothing fails. -/
def solidTarget (S : Situation) : Target Ram :=
  { S.setup with
    send := fun _ => true
    backend := ramBackend S.blockSize S.blockSize_pos S.blockSize_lt S.size }

theorem hosts_solidTarget (S : Situation) (r : Ram) : S.Hosts S.solidTarget r := ⟨rfl, rfl, rfl⟩

theorem reliable_solidTarget (S : Situation) :
    S.solidTarget.Reliable (fun r => r.script = []) where
  send _ := rfl
  read := by
    intro r blockNr n h
    simp [solidTarget, ramBackend, Ram.call, h]

/-- The refinement: the expectation on all backends is one on the delivered
bytes, which are a function of the medium. A backend enters only by what it
stores. -/
theorem returnsMedium_iff_delivered (h : S.IsRead q) (hseg : 0 < S.ses.maxSegLen.toNat) :
    S.ReturnsMedium q ↔ ∀ m, S.delivered q m =
      m.slice (q.bhs.getCdb.range.1.toNat * S.blockSize) (S.wanted q) := by
  constructor
  · intro hret m
    -- the run on a target on which nothing fails
    have h_stores := ramBackend_stores S.blockSize S.blockSize_pos S.blockSize_lt S.size
    obtain ⟨turns, h_turns⟩ := hret Ram S.solidTarget Ram.contents { contents := m }
      (S.hosts_solidTarget _) h_stores
    obtain ⟨c₁, es, h_serve₁, h_does₁, h_data₁⟩ := h_turns (max turns (2 ^ 32)) (le_max_left _ _)
    obtain ⟨c₂, fs, h_serve₂, h_does₂, h_data₂, h_ok⟩ := serve_read h_stores
      (S.hosts_solidTarget { contents := m }) h hseg (le_max_right turns (2 ^ 32))
    obtain rfl := Except.ok.inj (h_serve₁.symm.trans h_serve₂)
    obtain rfl := h_does₁.unique h_does₂
    have h_all := h_ok _ S.reliable_solidTarget rfl
    exact (h_data₂ h_all).symm.trans (h_data₁ h_all)
  · intro hall β T medium d hT hB
    refine ⟨2 ^ 32, fun fuel hfuel => ?_⟩
    obtain ⟨c', evs, h_serve, h_does, h_data, -⟩ := serve_read hB hT h hseg hfuel
    exact ⟨c', evs, h_serve, h_does, fun hevs => (h_data hevs).trans (hall _)⟩

/-- **READ returns the medium exactly when `Readable` holds.** The Data-Ins are
laid next to one another where their buffer offsets say, and what they give is
compared with the range of the medium, cut to what the initiator expects. For a
segment of `current_n` bytes the loop reads `current_n / block_size` blocks and
goes on that many blocks further, so what a segment holds behind its last whole
block is not read. -/
theorem returnsMedium_iff (h : S.IsRead q) (hseg : 0 < S.ses.maxSegLen) :
    S.ReturnsMedium q ↔ S.Readable q := by
  have h_seg : 0 < S.ses.maxSegLen.toNat := UInt32.lt_iff_toNat_lt.mp hseg
  rw [returnsMedium_iff_delivered h h_seg, delivered_iff h h_seg]

end Situation

/-- A device of eight 4096-byte blocks, on a session with the given segment
length. -/
def Sample.situation (maxSegLen : UInt32) : Situation where
  setup := Sample.setup
  blockSize := 4096
  blockSize_pos := by decide
  blockSize_lt := by decide
  size := 8
  ses := { maxSegLen := maxSegLen, allowDigest := true }

/-- READ(10) of two blocks from address 2, with room for both. -/
def Sample.readTwo : Pdu where
  bhs :=
    (#v[0x01, 0x80, 0, 0, 0, 0, 0, 0, 0, 0, 0, 0, 0, 0, 0, 0,
      5, 0, 0, 0, 0, 0, 0x20, 0, 0, 0, 0, 0, 0, 0, 0, 0] : Vector UInt8 32) ++
        Sample.cdb10 0x28 0 2 2
  data := []
  data_lt := Pdu.nil_lt

theorem Sample.readTwo_isRead (maxSegLen : UInt32) :
    (Sample.situation maxSegLen).IsRead Sample.readTwo where
  opcode := by decide +kernel
  read := by decide +kernel
  blocks := by decide +kernel
  inside := by
    change _ ≤ (8 : UInt64).toNat
    decide +kernel

/-- With segments of two blocks or more the two blocks are returned. -/
theorem Situation.returnsMedium_readTwo :
    (Sample.situation 8192).ReturnsMedium Sample.readTwo :=
  (Situation.returnsMedium_iff (Sample.readTwo_isRead 8192) (by decide)).mpr (.inr
    ⟨by decide +kernel, by decide +kernel, by decide +kernel, by
      unfold Situation.BlockAligned
      decide +kernel⟩)

/-- With segments of one block and a half they are not: the half block at the
end of the first segment stays zero. -/
theorem Situation.returnsMedium_fails :
    ¬ (Sample.situation 6144).ReturnsMedium Sample.readTwo := by
  rw [Situation.returnsMedium_iff_delivered (Sample.readTwo_isRead 6144) (by decide +kernel),
    Situation.delivered_iff (Sample.readTwo_isRead 6144) (by decide +kernel)]
  unfold Situation.Readable Situation.BlockAligned
  decide +kernel

end IscsiTarget
