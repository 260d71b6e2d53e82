import IscsiTarget.Digest
import IscsiTarget.Frame.RoundTrip
import IscsiTarget.Lib.Burst
import IscsiTarget.Receive.Handler

/-!
# What the digests keep out

The header with its segments, and the padded data segment, are each followed by a digest when the
session has negotiated that. Both are codewords of CRC-32C (`Digested`): what was sent and what
would be accepted lead to the same remainder. So bytes that differ from what was sent by a burst of
at most 32 bits or in an odd number of bits are not accepted, whichever bits these are, those of
the digest included (`not_digested_of_damaged`).

`receivePdu_of_damaged` says what becomes of such a PDU, and `iterate_of_damaged` what becomes of
the turn of the handler: the target is not touched.
-/

namespace IscsiTarget

open Reception

/-! ### Codewords -/

theorem messageBits_nativeBytes (v : UInt32) :
    Crc.messageBits (nativeBytes v) = Crc.bits 32 v.toNat := by
  have h_byte (shift : ℕ) : Crc.bits 8 (byteAt v.toNat shift).toNat =
      Crc.bits 8 (v.toNat / 2 ^ shift) := by
    rw [toNat_byteAt]
    exact Crc.bits_mod 8 _
  rw [show 32 = 8 + (8 + (8 + 8)) from rfl, Crc.bits_add, Crc.bits_add, Crc.bits_add,
    Nat.div_div_eq_div_mul, Nat.div_div_eq_div_mul, ← pow_add, ← pow_add]
  simp only [Crc.messageBits, nativeBytes, List.flatMap_cons, List.flatMap_nil, h_byte, pow_zero,
    Nat.div_one, List.append_nil]

/-- Bytes with their digest behind them. -/
def Digested (b : Bytes) : Prop := ∃ body, b = body ++ nativeBytes (crc32c body none).1

/-- What all of them have in common: the checksum over bytes and digest is a
constant, which depends on no byte. -/
theorem remainder_of_digested {b : Bytes} (h : Digested b) :
    Crc.remainder crc32cPoly 0xFFFFFFFF b =
      Crc.polySteps crc32cPoly 32 (BitVec.allOnes 32) := by
  obtain ⟨body, rfl⟩ := h
  have h_rest : (crc32c body none).2.toBitVec = Crc.remainder crc32cPoly 0xFFFFFFFF body :=
    toBitVec_crc32c_snd body none
  rw [Crc.remainder_append, ← h_rest]
  unfold Crc.remainder
  rw [messageBits_nativeBytes, Crc.foldl_complement (by decide) (by decide) (UInt32.toNat_lt _)]
  -- the digest is the complement of the remainder
  apply BitVec.eq_of_toNat_eq
  rw [BitVec.toNat_ofNat, Nat.mod_eq_of_lt (UInt32.toNat_lt _)]
  rfl

/-- Bytes that are not what was sent: a burst of at most 32 bits has hit them,
or an odd number of bits has been flipped. -/
def Damaged (sent got : Bytes) : Prop :=
  sent.length = got.length ∧
    (Crc.Burst 32 (Crc.messageBits sent) (Crc.messageBits got) ∨
      Odd (Crc.flips (Crc.messageBits sent) (Crc.messageBits got)))

theorem length_messageBits (b : Bytes) : (Crc.messageBits b).length = 8 * b.length := by
  induction b with
  | nil => rfl
  | cons d b ih =>
    have h_bits : (Crc.bits 8 d.toNat).length = 8 := by simp [Crc.bits]
    have h_cons : Crc.messageBits (d :: b) = Crc.bits 8 d.toNat ++ Crc.messageBits b := rfl
    rw [h_cons, List.length_append, h_bits, ih, List.length_cons]
    omega

theorem parity_crc32cPoly : Crc.parity crc32cPoly = 1 := by decide +kernel

/-- **Damage is noticed.** -/
theorem not_digested_of_damaged {sent got : Bytes} (h_sent : Digested sent)
    (h : Damaged sent got) : ¬Digested got := by
  intro h_got
  have h_eq := (remainder_of_digested h_sent).trans (remainder_of_digested h_got).symm
  obtain ⟨h_len, h_burst | h_odd⟩ := h
  · exact Crc.foldl_ne_of_burst (by decide) (by decide) h_burst _ h_eq
  · have h_bits : (Crc.messageBits sent).length = (Crc.messageBits got).length := by
      rw [length_messageBits, length_messageBits, h_len]
    exact Crc.foldl_ne_of_odd parity_crc32cPoly h_bits h_odd _ h_eq

/-! ### On the connection -/

/-- A word as it comes over the connection. -/
theorem nativeBytes_word (l : Link) : nativeBytes l.word = l.ahead 4 := by
  have h_byte (a b c d : UInt8) : nativeBytes (nativeUint32 a b c d) = [a, b, c, d] := by
    have h_a := a.toNat_lt
    have h_b := b.toNat_lt
    have h_c := c.toNat_lt
    have h_d := d.toNat_lt
    unfold nativeBytes nativeUint32
    rw [toNat_getUint32]
    simp only [List.cons.injEq, ← UInt8.toNat_inj, toNat_byteAt]
    simp only [BigEndian.ofBytes, List.length_cons, List.length_nil]
    refine ⟨?_, ?_, ?_, ?_, trivial⟩ <;> omega
  exact h_byte _ _ _ _

theorem toList_header (l : Link) : l.header.toList = l.ahead 48 := by
  apply List.ext_getElem
  · rw [Header.length_toList, Link.length_ahead]
  · intro i h_i h_l
    simp [Link.header, Header.ofBytes, Link.ahead]

section

variable {l : Link} {ses : Session}

/-- Something has happened to a header with a header digest, to the segments
behind it or to the digest. -/
def HeaderDamaged (l : Link) (ses : Session) : Prop :=
  HasDigest ses.getHeaderDigest l.header ∧
    ∃ sent, Digested sent ∧ Damaged sent (l.ahead (48 + l.header.getAhsLength + 4))

/-- Where the data segment starts. -/
def dataStart (l : Link) (ses : Session) : ℕ :=
  48 + (l.header.getAhsLength + digestLength ses.getHeaderDigest l.header)

/-- Something has happened to a data segment with a data digest, to its padding
or to the digest. -/
def DataDamaged (l : Link) (ses : Session) : Prop :=
  HasDigest ses.getDataDigest l.header ∧ l.header.getDataLength ≠ 0 ∧
    ∃ sent, Digested sent ∧
      Damaged sent ((l.skip (dataStart l ses)).ahead (padded l.header.getDataLength + 4))

variable {β : Type} {T : Target β}

theorem digestWrong_of_damaged (h_chk : T.digestChk = true)
    (h : HeaderDamaged l ses ∨ DataDamaged l ses) : DigestWrong T (l.skip 48) ses l.header := by
  rcases h with ⟨h_has, sent, h_sent, h_damaged⟩ | ⟨h_has, h_len, sent, h_sent, h_damaged⟩
  · refine .inl ⟨h_has, fun h_word => not_digested_of_damaged h_sent h_damaged ?_, h_chk⟩
    rw [headerCrc_eq, ← crc32c_fst] at h_word
    refine ⟨l.header.toList ++ (l.skip 48).ahead l.header.getAhsLength, ?_⟩
    rw [← h_word, nativeBytes_word, toList_header, ← Link.ahead_add, Link.skip_skip,
      ← Link.ahead_add]
  · refine .inr ⟨h_len, h_has, fun h_word => not_digested_of_damaged h_sent h_damaged ?_, h_chk⟩
    have h_start : (l.skip 48).skip (l.header.getAhsLength +
        digestLength ses.getHeaderDigest l.header) = l.skip (dataStart l ses) := Link.skip_skip
    rw [h_start] at h_word
    refine ⟨(l.skip (dataStart l ses)).ahead (padded l.header.getDataLength), ?_⟩
    rw [← h_word, nativeBytes_word, ← Link.ahead_add]

/-- A data segment that is too long is not delivered. It is read and thrown
away, and the PDU with it. -/
theorem readData_oversize_ok {r r' : Reception} {fuel : ℕ}
    (h_max : T.build.maxDataSegmentSize < r.pdu.bhs.getDataLength)
    (h : r.readData T fuel = .ok r') : r'.ok = false := by
  unfold readData at h
  dsimp only at h
  rw [if_pos h_max] at h
  cases h_drain : drain r.pdu.bhs.getDataLength fuel r.link with
  | error f =>
    rw [h_drain] at h
    cases h
  | ok link =>
    rw [h_drain] at h
    rw [← Except.ok.inj h]
    rfl

/-- **A PDU with a wrong digest** is not delivered. The connection may also end
before all of it has been read, and then the failure is another one. -/
theorem receivePdu_of_digestWrong (h : DigestWrong T (l.skip 48) ses l.header) {fuel : ℕ}
    {res : Received} (h_ok : receivePdu T (fuel + 1) l ses = .ok res) :
    res.pdu = none ∧ (res.failReason = .digest ∨ res.failReason = .connection) := by
  by_cases h_del : l.Delivers 48
  · rw [receivePdu_of_delivers h_del] at h_ok
    obtain ⟨h_ahs, h_login, h_long⟩ := receiveBody_of_ok h_ok
    by_cases h_fits : DataFits T l
    · obtain ⟨r, h_body, bad, h_reads, h_bad⟩ :=
        receiveBody_reads (T := T) ses h_ahs h_fits (h_login h_fits) fuel
      obtain rfl := Except.ok.inj (h_body.symm.trans h_ok)
      -- all of it arrives, and then the digest is compared, or it does not
      cases h_reads with
      | complete hlen hlink hbad hgood =>
        have h_all : (l.skip 48).Delivers (bodyLength ses l.header) := by
          by_cases h_pos : 0 < bodyLength ses l.header
          · exact hlen h_pos
          · rw [show bodyLength ses l.header = 0 by omega]
            exact Link.delivers_skip.mpr h_del
        obtain ⟨-, h_false, h_error⟩ := hbad ((h_bad h_all).mpr h)
        exact ⟨by simp [received, h_false], .inl h_error⟩
      | cut hpos hlen hlost => exact ⟨by simp [received, hlost.ok], .inr hlost.pduError⟩
    · -- a data segment that is too long does not get as far as its digest
      obtain ⟨r₁, r, h_first, h_data, rfl⟩ := receiveBody_eq_ok.mp h_ok
      obtain ⟨r₁', h_eq, -, -, h_bhs, -⟩ := readHeader_reads (T := T) ses h_ahs fuel
      obtain rfl := Except.ok.inj (h_first.symm.trans h_eq)
      have h_false := readData_oversize_ok (by rw [h_bhs]; exact not_le.mp h_fits) h_data
      exact ⟨by simp [received, h_false], .inr (h_long (not_le.mp h_fits)).1⟩
  · obtain ⟨l', h_recv, -⟩ := Link.recv_of_not_delivers h_del
    rw [receivePdu, h_recv] at h_ok
    rw [← Except.ok.inj h_ok]
    exact ⟨rfl, .inr rfl⟩

/-- **A damaged PDU** is not delivered, and nothing is done for it: the turn of
the handler in which it arrives ends in a fault or with the connection, and
leaves the target as it was. -/
theorem receivePdu_of_damaged (h_chk : T.digestChk = true)
    (h : HeaderDamaged l ses ∨ DataDamaged l ses) (fuel : ℕ) :
    (∀ res, receivePdu T (fuel + 1) l ses = .ok res →
      res.pdu = none ∧ (res.failReason = .digest ∨ res.failReason = .connection)) ∧
      ∀ h₀ h₁ : Handler β, h₀.link = l → h₀.conn.ses = ses →
        h₀.iterate T (fuel + 1) = .ok h₁ → h₁.conn.scsi = h₀.conn.scsi ∧ h₁.ok = false := by
  have h_receive (res : Received) (h_ok : receivePdu T (fuel + 1) l ses = .ok res) :=
    receivePdu_of_digestWrong (digestWrong_of_damaged h_chk h) h_ok
  refine ⟨h_receive, ?_⟩
  rintro h₀ h₁ rfl rfl h_turn
  unfold Handler.iterate at h_turn
  cases h_res : receivePdu T (fuel + 1) h₀.link h₀.conn.ses with
  | error f =>
    rw [h_res] at h_turn
    cases h_turn
  | ok incoming =>
    rw [h_res] at h_turn
    obtain ⟨pdu, failReason, link, ses⟩ := incoming
    obtain ⟨h_pdu, h_reason⟩ := h_receive _ h_res
    dsimp only at h_pdu h_reason h_turn
    subst h_pdu
    rcases h_reason with rfl | rfl
    · -- there is nothing to make a reject of
      cases h_turn
    · obtain rfl := Except.ok.inj h_turn
      exact ⟨rfl, by simp⟩

end

/-- A ping with a header digest, and a bit of its tag flipped on the way. -/
def Sample.flippedPing : Link :=
  { bytes := fun i => (([0, 128, 0, 0, 0, 0, 0, 5] ++ zeros 8 ++ [1] ++ zeros 31) ++
      nativeBytes (crc32c pingHeader.toList none).1).getD i 0 }

theorem receivePdu_of_damaged_ping : HeaderDamaged Sample.flippedPing digestSession ∧
    ∀ res, receivePdu (Sample.target 8) 1 Sample.flippedPing digestSession = .ok res →
      res.pdu = none ∧ (res.failReason = .digest ∨ res.failReason = .connection) := by
  have h_damaged : HeaderDamaged Sample.flippedPing digestSession := by
    refine ⟨by decide +kernel, pingHeader.toList ++ nativeBytes (crc32c pingHeader.toList none).1,
      ⟨_, rfl⟩, by decide +kernel, .inr ?_⟩
    decide +kernel
  exact ⟨h_damaged, (receivePdu_of_damaged rfl (.inl h_damaged) 0).1⟩

end IscsiTarget
