import IscsiTarget.Emit
import IscsiTarget.Lib.Segments

/-!
# The streaming loop

A READ is answered by a loop that reads a segment of the data, sends it as a Data-In and
goes on with the next one. The loop keeps two positions apart, a byte offset and a block
address, and moves them on separately; what it delivers is what a reader in whole blocks
delivers (`Segments.pieces`). `streamLoop_delivers` is that refinement, for every medium
and every backend that keeps the contract: as long as all reads and sends succeed, the
payloads are the pieces of the range, cut at the most one Data-In can carry.
-/

namespace IscsiTarget

variable {β : Type} {T : Target β} {medium : β → Medium UInt8}

/-! ### What the initiator receives -/

namespace Event

/-- A backend call or a send that succeeded. -/
def Succeeds : Event → Prop
  | .io _ ok => ok = true
  | .sent _ ok => ok = true
  | .received _ => True

instance : DecidablePred Succeeds
  | .io _ ok => inferInstanceAs (Decidable (ok = true))
  | .sent _ ok => inferInstanceAs (Decidable (ok = true))
  | .received _ => isTrue trivial

/-- The payload, when the event is the send of a Data-In. -/
def dataIn : Event → Bytes
  | .sent (.dataIn p) _ => p.payload
  | _ => []

end Event

/-- The payloads of the Data-Ins that are sent, in order. -/
def dataIns (es : List Event) : Bytes := es.flatMap Event.dataIn

@[simp] theorem dataIns_nil : dataIns [] = [] := rfl

@[simp] theorem dataIns_cons (e : Event) (es : List Event) :
    dataIns (e :: es) = e.dataIn ++ dataIns es := rfl

@[simp] theorem dataIns_append (es fs : List Event) :
    dataIns (es ++ fs) = dataIns es ++ dataIns fs := List.flatMap_append

/-- A target on which nothing fails while the backend is in a `good` state. -/
structure Target.Reliable (T : Target β) (good : β → Prop) : Prop where
  send : ∀ history, T.send history = true
  read : ∀ d blockNr n, good d →
    (T.backend.read d blockNr n).1.isSome = true ∧ good (T.backend.read d blockNr n).2

/-! ### One segment -/

/-- The number of blocks a segment is read with. -/
def streamBlocks (bs len : ℕ) : ℕ := if len < bs then 1 else len / bs

/-- What the loop makes of the blocks it has read is a piece of the medium. -/
theorem segment_eq_piece (m : Medium UInt8) (bs b len : ℕ) :
    (if len < bs then (m.slice (b * bs) (1 * bs)).take len
      else poke 0 (m.slice (b * bs) (len / bs * bs)) (zeros len)) =
      Segments.piece m bs b len := by
  unfold Segments.piece
  split
  · next h =>
    rw [Medium.take_slice, Nat.one_mul, min_eq_left h.le]
  · -- the buffer behind the blocks stays zero
    simp [poke, zeros]

/-- **A segment that is read**: one backend call, and if it succeeds a piece of
the medium, which stays as it is. -/
theorem streamRead_spec (hB : T.backend.Stores medium) {s : Scsi β} {lba : UInt64} {len : UInt32}
    (hl : s.lockingStatus T ≠ .lockedOther)
    (hin : lba.toNat + streamBlocks T.blockSize len.toNat ≤ s.size T) :
    ∃ k ok, s.Does (streamRead T s lba len).2 [.io (.read lba k) ok] ∧
      ok = (T.backend.read s.disk lba k).1.isSome ∧
      (streamRead T s lba len).2.disk = (T.backend.read s.disk lba k).2 ∧
      medium (streamRead T s lba len).2.disk = medium s.disk ∧
      (streamRead T s lba len).2.size T = s.size T ∧
      (ok = true → (streamRead T s lba len).1 =
        .ok (Segments.piece (medium s.disk) T.blockSize lba.toNat len.toNat)) ∧
      (ok = false → ∃ rc, (streamRead T s lba len).1 = .error rc) := by
  have h_len := len.toNat_lt
  -- the number of blocks, and the call
  obtain ⟨k, h_k, h_eq⟩ : ∃ k : UInt32, k.toNat = streamBlocks T.blockSize len.toNat ∧
      streamRead T s lba len =
        ((s.read T lba k).1.map fun data =>
          if len.toNat < T.blockSize then data.take len.toNat
          else poke 0 data (zeros len.toNat), (s.read T lba k).2) := by
    unfold streamRead streamBlocks
    by_cases h : len.toNat < T.blockSize
    · refine ⟨1, by simp [h], ?_⟩
      simp only [h, if_true]
      rcases s.read T lba 1 with ⟨_ | _, s'⟩ <;> rfl
    · refine ⟨UInt32.ofNat (len.toNat / T.blockSize), ?_, ?_⟩
      · rw [if_neg h]
        exact toNat_ofNat_32 ((Nat.div_le_self _ _).trans_lt h_len)
      · simp only [h, if_false]
        rcases s.read T lba (UInt32.ofNat (len.toNat / T.blockSize)) with ⟨_ | _, s'⟩ <;> rfl
  rw [← h_k] at hin
  have h_disk : (s.read T lba k).2.disk = (T.backend.read s.disk lba k).2 := by
    rw [Scsi.read_of_unlocked hl]
    rfl
  have h_does : s.Does (s.read T lba k).2
      [.io (.read lba k) (T.backend.read s.disk lba k).1.isSome] := by
    rw [Scsi.read_of_unlocked hl]
    exact Scsi.does_afterCall _ _
  rw [h_eq]
  refine ⟨k, _, h_does, rfl, h_disk, ?_, ?_, fun hok => ?_, fun hfail => ?_⟩
  · rw [h_disk]
    exact hB.read_medium _ _ _
  · rw [Scsi.size, Scsi.getSizeInBlocks, h_disk]
    exact congrArg UInt64.toNat (hB.read_size _ _ _)
  · obtain ⟨buf, h_buf⟩ := Option.isSome_iff_exists.mp hok
    have h_slice := hB.read_ok s.disk lba k buf hin h_buf
    rw [Scsi.read_of_unlocked hl, h_buf]
    simp only [Except.map]
    rw [← segment_eq_piece]
    congr 1
    unfold streamBlocks at h_k
    split
    · next h =>
      rw [if_pos h] at h_k
      rw [h_slice, h_k]
    · next h =>
      rw [if_neg h] at h_k
      rw [h_slice, h_k]
  · rw [Option.isSome_eq_false_iff, Option.isNone_iff_eq_none] at hfail
    rw [Scsi.read_of_unlocked hl, hfail]
    exact ⟨_, rfl⟩

/-! ### The loop -/

/-- The most one Data-In can carry. -/
def StreamParams.cap (p : StreamParams) (ses : Session) : ℕ := min ses.maxSegLen.toNat p.bufferN

/-- What is left to send at an offset. -/
def StreamParams.left (p : StreamParams) (offset : UInt32) : ℕ := p.offsetEnd.toNat - offset.toNat

theorem toNat_currentN {p : StreamParams} {ses : Session} {offset : UInt32}
    (h : offset < p.offsetEnd) :
    (p.currentN ses offset).toNat = min (p.cap ses) (p.left offset) := by
  have h_seg := ses.maxSegLen.toNat_lt
  have h_sub : (p.offsetEnd - offset).toNat = p.left offset :=
    UInt32.toNat_sub_of_le _ _ (UInt32.le_of_lt h)
  rw [StreamParams.currentN, h_sub, toNat_ofNat_32 (by omega), StreamParams.cap]
  omega

theorem maxSegLen_getIncDatasn (ses : Session) (itt : UInt32) :
    (ses.getIncDatasn itt).2.maxSegLen = ses.maxSegLen := by
  unfold Session.getIncDatasn
  split <;> rfl

@[simp] theorem payload_genDataInPdu (ses : Session) (replyTo : Header)
    (hasResidual : Option (Residual × UInt32)) (offset len : UInt32) (last : Bool)
    (payload : Bytes) :
    (genDataInPdu T ses replyTo hasResidual offset len last payload).1.payload = payload := rfl

/-- The DataSN counter moves on, nothing else of the session does. -/
@[simp] theorem maxSegLen_genDataInPdu (ses : Session) (replyTo : Header)
    (hasResidual : Option (Residual × UInt32)) (offset len : UInt32) (last : Bool)
    (payload : Bytes) :
    (genDataInPdu T ses replyTo hasResidual offset len last payload).2.maxSegLen =
      ses.maxSegLen :=
  maxSegLen_getIncDatasn ses replyTo.getItasktag

/-- Moving on by what has been sent. -/
theorem left_add_currentN {p : StreamParams} {ses : Session} {offset : UInt32}
    (h : offset < p.offsetEnd) :
    p.left (offset + p.currentN ses offset) =
      p.left offset - (p.currentN ses offset).toNat := by
  have h_n : (p.currentN ses offset).toNat = min (p.cap ses) (p.left offset) := toNat_currentN h
  have h_le : p.left offset ≤ p.offsetEnd.toNat := Nat.sub_le _ _
  have h_lt := p.offsetEnd.toNat_lt
  have h_off : offset.toNat ≤ p.offsetEnd.toNat := UInt32.le_of_lt h
  unfold StreamParams.left at h_n h_le ⊢
  rw [UInt32.toNat_add]
  omega

/-- **One turn.** Either a read or a send fails, and the loop ends there, or a
piece of the medium goes out and the loop goes on behind it. -/
theorem streamLoop_turn (hB : T.backend.Stores medium) {p : StreamParams} {offset len : UInt32}
    {lba : UInt64} {c : Conn β} (hl : c.scsi.lockingStatus T ≠ .lockedOther)
    (hmore : offset < p.offsetEnd) (hlen : len = p.currentN c.ses offset)
    (hin : lba.toNat + streamBlocks T.blockSize len.toNat ≤ c.scsi.size T) :
    (∃ ifr c' evs, (∀ fuel, streamLoop T p (fuel + 1) .ok offset lba c = .ok (ifr, c')) ∧
      c.scsi.Does c'.scsi evs ∧ (∃ e ∈ evs, ¬ e.Succeeds) ∧
      ∀ good, T.Reliable good → ¬ good c.scsi.disk) ∨
    (∃ c' evs, (∀ fuel, streamLoop T p (fuel + 1) .ok offset lba c =
        streamLoop T p fuel .ok (offset + len)
          (lba + (UInt32.ofNat (len.toNat / T.blockSize)).toUInt64) c') ∧
      c.scsi.Does c'.scsi evs ∧ (∀ e ∈ evs, e.Succeeds) ∧
      dataIns evs = Segments.piece (medium c.scsi.disk) T.blockSize lba.toNat len.toNat ∧
      c'.ses.maxSegLen = c.ses.maxSegLen ∧ medium c'.scsi.disk = medium c.scsi.disk ∧
      c'.scsi.size T = c.scsi.size T ∧
      ∀ good, T.Reliable good → good c.scsi.disk → good c'.scsi.disk) := by
  obtain ⟨k, ok, h_does, h_isSome, h_disk, h_medium, h_size, h_ok, h_fail⟩ :=
    streamRead_spec hB hl hin
  generalize h_read : streamRead T c.scsi lba len = r at *
  obtain ⟨result, s'⟩ := r
  cases ok with
  | false =>
    -- the read fails
    obtain ⟨rc, h_rc⟩ := h_fail rfl
    obtain rfl : result = .error rc := h_rc
    refine .inl ⟨.ioError, { scsi := s', ses := (c.ses.getIncDatasn p.replyTo.getItasktag).2 },
      [.io (.read lba k) false], fun fuel => ?_, h_does,
      ⟨_, List.mem_singleton_self _, by simp [Event.Succeeds]⟩, fun good hgood h => ?_⟩
    swap
    · rw [(hgood.read _ lba k h).1] at h_isSome
      exact absurd h_isSome (by simp)
    rw [streamLoop, if_pos hmore]
    simp only [← hlen, h_read]
    rfl
  | true =>
    obtain rfl : result = _ := h_ok rfl
    obtain ⟨pdu, h_pdu⟩ : ∃ pdu, pdu = genDataInPdu T c.ses p.replyTo
        (if (offset + len == p.offsetEnd) = true then
          residualOf p.scsiHas.toNat p.iscsiWants.toNat else none)
        offset len (offset + len == p.offsetEnd)
        (Segments.piece (medium c.scsi.disk) T.blockSize lba.toNat len.toNat) := ⟨_, rfl⟩
    have h_sent := h_does.trans
      (Scsi.does_note (s := s') (.sent (.dataIn pdu.1) (T.send s'.history)))
    cases h_send : T.send s'.history with
    | false =>
      -- the read works, the send fails
      rw [h_send] at h_sent
      refine .inl ⟨.connection,
        { scsi := s'.note (.sent (.dataIn pdu.1) false), ses := pdu.2 }, _, fun fuel => ?_,
        h_sent, ⟨.sent (.dataIn pdu.1) false, by simp, by simp [Event.Succeeds]⟩,
        fun good hgood _ => absurd ((hgood.send _).symm.trans h_send) (by simp)⟩
      rw [streamLoop, if_pos hmore]
      simp only [← hlen, h_read, ← h_pdu, sendPdu, h_send]
    | true =>
      rw [h_send] at h_sent
      refine .inr ⟨{ scsi := s'.note (.sent (.dataIn pdu.1) true), ses := pdu.2 }, _,
        fun fuel => ?_, h_sent, by simp [Event.Succeeds], ?_, ?_, h_medium, h_size,
        fun good hgood h => ?_⟩
      · rw [streamLoop, if_pos hmore]
        simp only [← hlen, h_read, ← h_pdu, sendPdu, h_send]
      · rw [h_pdu]
        simp [Event.dataIn]
      · rw [h_pdu]
        simp
      · rw [Scsi.note_disk, h_disk]
        exact (hgood.read _ lba k h).2

/-- A reservation of another session stops the loop at its first read, before
anything has been sent. -/
theorem streamLoop_locked {p : StreamParams} {offset : UInt32} {c : Conn β}
    (hl : c.scsi.lockingStatus T = .lockedOther) (hmore : offset < p.offsetEnd) {n : ℕ}
    (hn : 0 < n) (lba : UInt64) :
    ∃ c', streamLoop T p n .ok offset lba c = .ok (.ioError, c') ∧ c'.scsi = c.scsi := by
  obtain ⟨fuel, rfl⟩ : ∃ fuel, n = fuel + 1 := ⟨n - 1, by omega⟩
  have h_read : streamRead T c.scsi lba (p.currentN c.ses offset) =
      (.error .failLocked, c.scsi) := by
    unfold streamRead
    split <;> rw [Scsi.read_of_locked hl]
  refine ⟨{ scsi := c.scsi, ses := (c.ses.getIncDatasn p.replyTo.getItasktag).2 }, ?_, rfl⟩
  rw [streamLoop, if_pos hmore]
  simp only [h_read]
  rfl

/-- **The loop delivers the pieces of the range.** The block address never runs
ahead of the byte offset, so every read is inside the device. -/
theorem streamLoop_delivers (hB : T.backend.Stores medium) {p : StreamParams} {seg : UInt32}
    (hcap : 0 < min seg.toNat p.bufferN) (fuel : ℕ) :
    ∀ (offset : UInt32) (lba : UInt64) (c : Conn β), c.ses.maxSegLen = seg →
      c.scsi.lockingStatus T ≠ .lockedOther →
      lba.toNat * T.blockSize + p.left offset ≤ c.scsi.size T * T.blockSize →
      p.left offset < fuel →
      ∃ ifr c' evs, streamLoop T p fuel .ok offset lba c = .ok (ifr, c') ∧
        c.scsi.Does c'.scsi evs ∧
        ((∀ e ∈ evs, e.Succeeds) → dataIns evs =
          Segments.pieces (medium c.scsi.disk) T.blockSize lba.toNat
            (Segments.cut (min seg.toNat p.bufferN) (p.left offset))) ∧
        ∀ good, T.Reliable good → good c.scsi.disk → ∀ e ∈ evs, e.Succeeds := by
  induction fuel with
  | zero =>
    intro offset lba c hseg hl hin hfuel
    omega
  | succ fuel ih =>
    intro offset lba c hseg hl hin hfuel
    by_cases h_more : offset < p.offsetEnd
    swap
    · -- everything has been sent
      have h_left : p.left offset = 0 := by
        rw [UInt32.not_lt, UInt32.le_iff_toNat_le] at h_more
        unfold StreamParams.left
        omega
      refine ⟨.ok, c, [], by rw [streamLoop, if_neg h_more], .refl _, fun _ => ?_, by simp⟩
      rw [h_left, Segments.cut_zero]
      rfl
    have h_pos : 0 < p.left offset := Nat.sub_pos_of_lt h_more
    have h_cut := Segments.cut_of_pos hcap h_pos
    obtain ⟨len, h_def⟩ : ∃ len, len = p.currentN c.ses offset := ⟨_, rfl⟩
    have h_len : len.toNat = min (min seg.toNat p.bufferN) (p.left offset) := by
      rw [h_def, toNat_currentN h_more, StreamParams.cap, hseg]
    have h_left : p.left (offset + p.currentN c.ses offset) =
        p.left offset - (p.currentN c.ses offset).toNat := left_add_currentN h_more
    rw [← h_def] at h_left
    rw [← h_len] at h_cut
    -- the block address stays behind the byte offset
    have h_bs := T.blockSize_pos
    have h_div := Nat.div_mul_le_self len.toNat T.blockSize
    have h_blocks : lba.toNat + streamBlocks T.blockSize len.toNat ≤ c.scsi.size T := by
      unfold streamBlocks
      split
      · have : lba.toNat < c.scsi.size T :=
          Nat.lt_of_mul_lt_mul_right (a := T.blockSize) (by omega)
        omega
      · refine Nat.le_of_mul_le_mul_right ?_ h_bs
        rw [Nat.add_mul]
        omega
    rcases streamLoop_turn hB hl h_more h_def h_blocks with
      ⟨ifr, c', evs, h_run, h_does, ⟨e, h_mem, h_fails⟩, h_not⟩ |
        ⟨c', evs, h_run, h_does, h_ok, h_data, h_seg, h_medium, h_size, h_good⟩
    · exact ⟨ifr, c', evs, h_run fuel, h_does, fun h => absurd (h e h_mem) h_fails,
        fun good hgood h => absurd h (h_not good hgood)⟩
    · have h_next : (lba + (UInt32.ofNat (len.toNat / T.blockSize)).toUInt64).toNat =
          lba.toNat + len.toNat / T.blockSize := by
        have h_end : lba.toNat + len.toNat / T.blockSize ≤ c.scsi.size T := by
          refine Nat.le_of_mul_le_mul_right ?_ h_bs
          rw [Nat.add_mul]
          omega
        have h_device : c.scsi.size T < 2 ^ 64 := (c.scsi.getSizeInBlocks T).toNat_lt
        have h_lt := (Nat.div_le_self len.toNat T.blockSize).trans_lt len.toNat_lt
        rw [UInt64.toNat_add, UInt32.toNat_toUInt64, toNat_ofNat_32 h_lt]
        exact Nat.mod_eq_of_lt (by omega)
      obtain ⟨ifr, c'', evs', h_rest, h_does', h_data', h_ok'⟩ :=
        ih (offset + len) (lba + (UInt32.ofNat (len.toNat / T.blockSize)).toUInt64) c'
          (h_seg.trans hseg) (by rwa [h_does.lockingStatus]) (by
            rw [h_next, h_left, h_size, Nat.add_mul]
            omega) (by omega)
      refine ⟨ifr, c'', evs ++ evs', (h_run fuel).trans h_rest, h_does.trans h_does',
        fun h => ?_, fun good hgood h e he => ?_⟩
      · rw [dataIns_append, h_data, h_data' fun e he => h e (List.mem_append_right _ he), h_cut,
          h_left, h_next, h_medium]
        rfl
      · exact (List.mem_append.mp he).elim (h_ok e) (h_ok' good hgood (h_good good hgood h) e)

end IscsiTarget
