import IscsiTarget.Model.Sample
import IscsiTarget.Receive.Stages

/-!
# Framing

One PDU takes up `frameLength` bytes of the connection, which its header and the digest
settings determine. `receive_pdu` is in sync when it comes to an end and has read exactly
these bytes, unless the connection has failed under it (`StaysInSync`).

`receiveBody_reads` puts the stages of `receive_pdu` together, and `staysInSync_iff` says
for which streams the framing holds: the three ways to keep `receive_pdu` from ending are
the only ones to lose it.
-/

namespace IscsiTarget

open Reception

variable {β : Type} (T : Target β)

/-! ### The frame -/

/-- The number of bytes behind the basic header segment. -/
def bodyLength (ses : Session) (bhs : Header) : ℕ :=
  bhs.getAhsLength + (digestLength ses.getHeaderDigest bhs + dataLength ses bhs)

/-- The number of bytes of a PDU: the basic header segment, the additional
header segments, the header digest, the padded data segment and the data digest. -/
def frameLength (ses : Session) (bhs : Header) : ℕ := 48 + bodyLength ses bhs

/-- The basic header segment that comes next. -/
def Link.header (l : Link) : Header := Header.ofBytes (l.ahead 48)

/-- `receive_pdu` comes to an end, and unless the connection fails it has read
exactly one PDU. -/
def StaysInSync (l : Link) (ses : Session) : Prop :=
  ∃ fuel res, receivePdu T fuel l ses = .ok res ∧
    (res.failReason ≠ .connection → res.link.pos = l.pos + frameLength ses l.header)

/-- The data segment that comes next is not too long. -/
def DataFits (l : Link) : Prop := l.header.getDataLength ≤ T.build.maxDataSegmentSize

/-- One of the digests is wrong, `l` being behind the basic header segment. -/
def DigestWrong (l : Link) (ses : Session) (bhs : Header) : Prop :=
  HasDigest ses.getHeaderDigest bhs ∧ (l.skip bhs.getAhsLength).word ≠
      headerCrc l bhs (crc32c bhs.toList none) ∧ T.digestChk = true ∨
    DataDigestWrong T (l.skip (bhs.getAhsLength + digestLength ses.getHeaderDigest bhs)) ses bhs

variable {T}

/-! ### The stages together -/

/-- Two calls in a row that both return. -/
theorem bind_map_eq_ok {α γ δ ε : Type} {x : Except ε α} {g : α → Except ε γ} {f : γ → δ} {d : δ} :
    (x.bind fun a => (g a).map f) = .ok d ↔ ∃ a b, x = .ok a ∧ g a = .ok b ∧ d = f b := by
  cases x with
  | error e => simp [Except.bind]
  | ok a => cases h : g a <;> simp [Except.bind, Except.map, h, eq_comm]

/-- `receive_pdu` returns when the stages do. -/
theorem receiveBody_eq_ok {fuel : ℕ} {l : Link} {ses : Session} {bhs : Header} {res : Received} :
    receiveBody T fuel l ses bhs = .ok res ↔
      ∃ r₁ r, (firstReception l ses bhs).readAhs fuel = .ok r₁ ∧
        (r₁.readHeaderDigest T).readData T fuel = .ok r ∧ res = r.received :=
  bind_map_eq_ok

/-- The first two stages: the additional header segments and the header digest,
if there is one. The checksum goes over the header and the segments. -/
theorem readHeader_reads {l : Link} {bhs : Header} (ses : Session) (hahs : ¬ AhsStuck l bhs)
    (fuel : ℕ) :
    ∃ r₁, (firstReception l ses bhs).readAhs (fuel + 1) = .ok r₁ ∧
      Reads (firstReception l ses bhs) (r₁.readHeaderDigest T)
        (bhs.getAhsLength + digestLength ses.getHeaderDigest bhs)
        (HasDigest ses.getHeaderDigest bhs ∧ r₁.link.word ≠ r₁.crc.1 ∧ T.digestChk = true) ∧
      (r₁.readHeaderDigest T).ses = ses ∧ (r₁.readHeaderDigest T).pdu.bhs = bhs ∧
      (l.Delivers bhs.getAhsLength → r₁.link = l.skip bhs.getAhsLength ∧
        r₁.crc.1 = headerCrc l bhs (crc32c bhs.toList none)) := by
  obtain ⟨r₁, h_ahs, h_reads, h_ses, h_bhs, h_crc⟩ :=
    readAhs_reads (r := firstReception l ses bhs) hahs fuel
  obtain ⟨h_digest, h_ses', h_pdu'⟩ :=
    readDigest_if_reads (T := T) r₁ r₁.ses.getHeaderDigest r₁.crc.1
  refine ⟨r₁, h_ahs, ?_, h_ses'.trans h_ses, (congrArg Pdu.bhs h_pdu').trans h_bhs,
    fun h => ⟨h_reads.link_of_delivers h, h_crc h⟩⟩
  have h_length : digestLength r₁.ses.getHeaderDigest r₁.pdu.bhs =
      digestLength ses.getHeaderDigest bhs := by rw [h_ses, h_bhs]; rfl
  have h_has : HasDigest r₁.ses.getHeaderDigest r₁.pdu.bhs ↔
      HasDigest ses.getHeaderDigest bhs := by rw [h_ses, h_bhs]; rfl
  -- the two stages one after the other, in terms of the session and header of the start
  have h_both := h_reads.trans h_digest
  rw [h_length, h_has, false_or] at h_both
  exact h_both

/-- **All the stages**, when nothing keeps them from ending. Together they read
what the header announces, and what is wrong is a digest. -/
theorem receiveBody_reads {l : Link} {bhs : Header} (ses : Session) (hahs : ¬ AhsStuck l bhs)
    (hmax : bhs.getDataLength ≤ T.build.maxDataSegmentSize)
    (hthrows : ¬ LoginThrows (l.skip bhs.getAhsLength) bhs) (fuel : ℕ) :
    ∃ r, receiveBody T (fuel + 1) l ses bhs = .ok r.received ∧ ∃ bad,
      Reads (firstReception l ses bhs) r (bodyLength ses bhs) bad ∧
      (l.Delivers (bodyLength ses bhs) → (bad ↔ DigestWrong T l ses bhs)) := by
  obtain ⟨r₁, h_ahs, h_header, h_ses, h_bhs, h_first⟩ :=
    readHeader_reads (T := T) ses hahs fuel
  have h_throws : ¬ LoginThrows (r₁.readHeaderDigest T).link (r₁.readHeaderDigest T).pdu.bhs := by
    rw [h_bhs]
    intro h
    have h_pos := padded_pos h.2.1
    -- a login has no header digest, and on a lost connection nothing arrives
    have h_zero : digestLength ses.getHeaderDigest bhs = 0 := by
      simp [digestLength, HasDigest, h.1]
    rw [h_zero, Nat.add_zero] at h_header
    cases h_header with
    | complete hlen hlink hbad hgood =>
      rw [hlink] at h
      exact hthrows h
    | cut hpos hlen hlost => exact hlost.ended.not_delivers h_pos h.2.2.1
  obtain ⟨r, h_data, h_reads⟩ := readData_reads (r := r₁.readHeaderDigest T) (T := T)
    (by rw [h_bhs]; exact hmax) h_throws (fuel + 1)
  rw [h_ses, h_bhs] at h_reads
  have h_all := h_header.trans h_reads
  rw [Nat.add_assoc] at h_all
  refine ⟨r, receiveBody_eq_ok.mpr ⟨r₁, r, h_ahs, h_data, rfl⟩, _, h_all, fun h_del => ?_⟩
  obtain ⟨h_link, h_crc⟩ := h_first (h_del.mono (by unfold bodyLength; omega))
  have h_link' := h_header.link_of_delivers (h_del.mono (by unfold bodyLength; omega))
  rw [h_link', h_link, h_crc]
  rfl

/-- What keeps the stages from ending: a segment without a length, an oversized
segment on a connection without an end, and a number in a login that cannot be
read. -/
theorem receiveBody_of_ok {fuel : ℕ} {l : Link} {ses : Session} {bhs : Header} {res : Received}
    (h : receiveBody T fuel l ses bhs = .ok res) :
    ¬ AhsStuck l bhs ∧
      (bhs.getDataLength ≤ T.build.maxDataSegmentSize →
        ¬ LoginThrows (l.skip bhs.getAhsLength) bhs) ∧
      (T.build.maxDataSegmentSize < bhs.getDataLength →
        res.failReason = .connection ∧ l.eof ≠ none) := by
  obtain ⟨r, r', h_read, h_data, rfl⟩ := receiveBody_eq_ok.mp h
  have h_ahs : ¬ AhsStuck l bhs := by
    intro h_stuck
    rw [readAhs_stuck (r := firstReception l ses bhs) h_stuck] at h_read
    simp at h_read
  obtain ⟨r₁, h_eq, h_header, h_ses, h_bhs, h_first⟩ :=
    readHeader_reads (T := T) ses h_ahs fuel
  obtain rfl := Except.ok.inj ((readAhs_mono h_read).symm.trans h_eq)
  refine ⟨h_ahs, fun hmax hthrows => ?_, fun hmax => ?_⟩
  · -- the login is read up to its data, where it throws
    have h_zero : digestLength ses.getHeaderDigest bhs = 0 := by
      simp [digestLength, HasDigest, hthrows.1]
    have h_del : l.Delivers (bhs.getAhsLength + padded bhs.getDataLength) :=
      Link.delivers_skip.mp hthrows.2.2.1
    have h_link := h_header.link_of_delivers (by
      rw [h_zero]
      exact h_del.mono (by omega))
    rw [h_zero, Nat.add_zero] at h_link
    obtain ⟨f, h_error⟩ := readData_throws (r := r.readHeaderDigest T) (T := T)
      (by rw [h_link, h_bhs]; exact hthrows) (by rw [h_bhs]; exact hmax) fuel
    exact absurd (h_data.symm.trans h_error) (by simp)
  · -- a segment that is too long is drained, which ends with the connection
    obtain ⟨h_never, h_lost, -⟩ := readData_oversize (r := r.readHeaderDigest T) (T := T)
      (by rw [h_bhs]; exact hmax)
    refine ⟨h_lost fuel r' h_data, fun he => ?_⟩
    have h_link := h_header.link_of_delivers (Link.delivers_of_eof he _)
    exact absurd (h_data.symm.trans (h_never (by rw [h_link]; exact he) fuel)) (by simp)

/-- A data segment that is too long on a connection that ends. -/
theorem receiveBody_oversize {l : Link} {bhs : Header} (ses : Session) (hahs : ¬ AhsStuck l bhs)
    (hmax : T.build.maxDataSegmentSize < bhs.getDataLength) (heof : l.eof ≠ none) :
    ∃ fuel res, receiveBody T fuel l ses bhs = .ok res := by
  obtain ⟨r₁, h_ahs, h_header, h_ses, h_bhs, -⟩ :=
    readHeader_reads (T := T) ses hahs 0
  have h_more (fuel : ℕ) : (firstReception l ses bhs).readAhs (fuel + 1) = .ok r₁ := by
    induction fuel with
    | zero => exact h_ahs
    | succ fuel ih => exact readAhs_mono ih
  obtain ⟨fuel, r, h_data⟩ := (readData_oversize (r := r₁.readHeaderDigest T) (T := T)
    (by rw [h_bhs]; exact hmax)).2.2 (h_header.eof_ne_none heof)
  exact ⟨fuel + 1, r.received, receiveBody_eq_ok.mpr ⟨r₁, r, h_more fuel, h_data, rfl⟩⟩

/-! ### The framing of one PDU -/

/-- The header is there. -/
theorem receivePdu_of_delivers {l : Link} (h : l.Delivers 48) (fuel : ℕ) (ses : Session) :
    receivePdu T fuel l ses = receiveBody T fuel (l.skip 48) ses l.header := by
  rw [receivePdu, Link.recv_of_delivers h]
  rfl

variable (T) in
/-- Nothing keeps `receive_pdu` from ending: additional header segments do not
start with two zero bytes, a data segment that is too long comes over a
connection that ends, and the numbers of a login are numbers. -/
def Framed (l : Link) : Prop :=
  ¬ AhsStuck (l.skip 48) l.header ∧ (DataFits T l ∨ l.eof ≠ none) ∧
    (DataFits T l → ¬ LoginThrows ((l.skip 48).skip l.header.getAhsLength) l.header)

/-- **PDU framing.** `receive_pdu` stays in sync exactly when nothing keeps it
from ending: whatever the bytes are, when it returns it has taken one whole
frame off the connection, or the connection is closed. The three ways it does
not return are the parts of `Framed`. -/
theorem staysInSync_iff (l : Link) (ses : Session) : StaysInSync T l ses ↔ Framed T l := by
  by_cases h_del : l.Delivers 48
  · constructor
    · -- it has returned, so nothing has kept it
      rintro ⟨fuel, res, h_ok, -⟩
      rw [receivePdu_of_delivers h_del] at h_ok
      obtain ⟨h_ahs, h_login, h_long⟩ := receiveBody_of_ok h_ok
      refine ⟨h_ahs, ?_, h_login⟩
      by_cases h_fits : DataFits T l
      · exact .inl h_fits
      · exact .inr (h_long (not_le.mp h_fits)).2
    · -- nothing keeps it: the stages either take the whole frame or lose the connection
      rintro ⟨h_ahs, h_eof, h_login⟩
      by_cases h_fits : DataFits T l
      · obtain ⟨r, h_body, bad, h_reads, -⟩ :=
          receiveBody_reads (T := T) ses h_ahs h_fits (h_login h_fits) 0
        refine ⟨_, _, (receivePdu_of_delivers h_del _ _).trans h_body, fun h_reason => ?_⟩
        cases h_reads with
        | complete hlen hlink hbad hgood =>
          change r.link.pos = _
          rw [hlink]
          simp [firstReception, Link.skip, frameLength, Nat.add_assoc]
        | cut hpos hlen hlost => exact absurd hlost.pduError h_reason
      · obtain ⟨fuel, res, h_body⟩ := receiveBody_oversize (T := T) ses h_ahs
          (not_le.mp h_fits) (h_eof.resolve_left h_fits)
        refine ⟨fuel, res, (receivePdu_of_delivers h_del _ _).trans h_body, fun h_reason => ?_⟩
        exact absurd ((receiveBody_of_ok h_body).2.2 (not_le.mp h_fits)).1 h_reason
  · -- not even the header arrives
    obtain ⟨l', h_recv, -⟩ := Link.recv_of_not_delivers h_del
    obtain ⟨e, he, -⟩ := Link.exists_eof_of_not_delivers h_del
    refine iff_of_true ⟨0, _, by rw [receivePdu, h_recv], fun h => absurd rfl h⟩ ⟨?_, .inr ?_, ?_⟩
    · rintro ⟨-, h_ahs, -⟩
      exact h_del ((Link.delivers_skip.mp h_ahs).mono (by omega))
    · simp [he]
    · rintro - ⟨-, -, h_data, -⟩
      rw [Link.skip_skip] at h_data
      exact h_del ((Link.delivers_skip.mp h_data).mono (by omega))

/-- A stream that starts with a NOP-Out with one word of additional header
segments. Every other byte is zero, the word included. -/
def Sample.zeroAhs : Link := { bytes := fun i => if i = 4 then 1 else 0 }

/-- A stream that starts with a NOP-Out that announces 65536 bytes of data. -/
def Sample.longData : Link := { bytes := fun i => if i = 5 then 1 else 0 }

/-- The target on a machine with little memory. -/
def Sample.smallTarget : Target Ram := { Sample.target 8 with build := .esp32 }

/-- `receive_pdu` does not come back from additional header segments that are
zero, nor from a data segment that is too long. -/
theorem framing_fails :
    ¬ StaysInSync (Sample.target 8) Sample.zeroAhs (newSession (Sample.target 8)) ∧
      ¬ StaysInSync Sample.smallTarget Sample.longData (newSession Sample.smallTarget) := by
  constructor
  · rintro ⟨fuel, res, h, -⟩
    rw [receivePdu_of_delivers (Link.delivers_of_eof rfl 48)] at h
    refine (receiveBody_of_ok h).1 ⟨by decide +kernel, Link.delivers_of_eof rfl _, ?_, ?_⟩
    · decide +kernel
    · decide +kernel
  · rintro ⟨fuel, res, h, -⟩
    rw [receivePdu_of_delivers (Link.delivers_of_eof rfl 48)] at h
    exact ((receiveBody_of_ok h).2.2 (by decide +kernel)).2 rfl

end IscsiTarget
