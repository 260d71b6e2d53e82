import IscsiTarget.Commands.Forms
import IscsiTarget.Frame.Layout
import IscsiTarget.Receive.Framing

/-!
# Reading a frame

`receive_pdu` reads what `get_helper` writes: stage by stage it takes one part of the layout off the
connection (`Carries`), computes the digest that the sender has computed, and keeps the data without
the padding. `frame_roundTrip` is this for every header without additional header segments and every
setting of the digests; only a login is read in another way.
-/

namespace IscsiTarget

open Reception

/-! ### What a connection carries -/

namespace Link

variable {l : Link} {a b : Bytes}

/-- `bytes` come next on the connection. -/
def Carries (l : Link) (bytes : Bytes) : Prop :=
  l.Delivers bytes.length ∧ l.ahead bytes.length = bytes

theorem ahead_add (l : Link) (m n : ℕ) : l.ahead (m + n) = l.ahead m ++ (l.skip m).ahead n := by
  unfold ahead
  rw [List.range_add, List.map_append, List.map_map]
  congr 1
  apply List.map_congr_left
  intro i _
  change l.bytes (l.pos + (m + i)) = l.bytes (l.pos + m + i)
  rw [Nat.add_assoc]

theorem Carries.append (h : l.Carries (a ++ b)) :
    l.Carries a ∧ (l.skip a.length).Carries b := by
  obtain ⟨h_delivers, h_ahead⟩ := h
  rw [List.length_append] at h_delivers h_ahead
  rw [ahead_add] at h_ahead
  obtain ⟨h_a, h_b⟩ := List.append_inj h_ahead length_ahead
  exact ⟨⟨h_delivers.mono (Nat.le_add_right _ _), h_a⟩, delivers_skip.mpr h_delivers, h_b⟩

/-- `recv` takes them off. -/
theorem Carries.recv (h : l.Carries a) : l.recv a.length = (some a, l.skip a.length) := by
  rw [recv_of_delivers h.1, h.2]

end Link

/-! ### Headers and digests -/

theorem Header.ofBytes_toList (h : Header) : Header.ofBytes h.toList = h := by
  apply Vector.ext
  intro i h_i
  unfold Header.ofBytes
  rw [Vector.getElem_ofFn, List.getD_eq_getElem?_getD, Vector.getElem?_toList]
  simp [h_i]

/-- A word that was stored is loaded. -/
theorem nativeUint32_nativeBytes (v : UInt32) :
    nativeUint32 ((nativeBytes v).getD 0 0) ((nativeBytes v).getD 1 0) ((nativeBytes v).getD 2 0)
      ((nativeBytes v).getD 3 0) = v := by
  have h_lt := v.toNat_lt
  apply UInt32.toNat.inj
  change (getUint32 (byteAt v.toNat 24) (byteAt v.toNat 16) (byteAt v.toNat 8)
    (byteAt v.toNat 0)).toNat = _
  rw [toNat_getUint32]
  exact (ofBytes_be32 v.toNat).trans (Nat.mod_eq_of_lt h_lt)

section Stages

variable {β : Type} {T : Target β} {r : Reception}

/-- A digest that is right, or not looked at. -/
theorem readDigest_of_carries {v crc : UInt32} (h : r.link.Carries (nativeBytes v))
    (h_crc : T.digestChk = true → v = crc) :
    r.readDigest T crc = { r with link := r.link.skip 4 } := by
  unfold readDigest
  have h_recv : r.link.recv 4 = (some (nativeBytes v), r.link.skip 4) := h.recv
  rw [h_recv]
  dsimp only
  rw [nativeUint32_nativeBytes]
  split
  · next h_wrong => exact absurd (h_crc h_wrong.2) h_wrong.1
  · rfl

/-- The header digest, when there is one. It agrees, because both ends have
computed it over the same header. -/
theorem readHeaderDigest_of_carries (h_op : r.pdu.bhs.getOpcode ≠ .loginReq)
    (h : r.link.Carries (headerDigestBytes r.ses.getHeaderDigest r.pdu.bhs))
    (h_crc : r.crc.1 = (crc32c r.pdu.bhs.toList none).1) :
    r.readHeaderDigest T =
      { r with
        link := r.link.skip (headerDigestBytes r.ses.getHeaderDigest r.pdu.bhs).length } := by
  have h_has : r.pdu.hasDigest = true := bne_iff_ne.mpr h_op
  unfold readHeaderDigest
  cases h_digest : r.ses.getHeaderDigest with
  | false =>
    rw [if_neg fun h_both => Bool.false_ne_true h_both.1]
    rfl
  | true =>
    rw [h_digest] at h
    rw [if_pos ⟨rfl, h_has⟩]
    exact readDigest_of_carries h fun _ => h_crc.symm

/-- `set_data` of anything but a login. -/
theorem setData_of_not_login {data d : Bytes} (h_op : r.pdu.bhs.getOpcode ≠ .loginReq)
    (h_eq : d = data) (h_d : d.length < 2 ^ 24) (h_lt : data.length < 2 ^ 24) :
    r.setData d h_d = .ok { r with pdu := { r.pdu with data := data, data_lt := h_lt } } := by
  subst h_eq
  unfold setData
  split
  · next h_login => exact absurd h_login h_op
  · rfl

/-- The data segment, with its digest when there is one. It is read with its
padding, and the digest agrees because the sender has computed it over the same
bytes. -/
theorem readData_of_carries {data : Bytes} (h_op : r.pdu.bhs.getOpcode ≠ .loginReq)
    (h_len : r.pdu.bhs.getDataLength = data.length)
    (h_max : data.length ≤ T.build.maxDataSegmentSize) (h_empty : r.pdu.data = [])
    (h : r.link.Carries
      (if data = [] then [] else segment data ++ dataDigestBytes r.ses.getDataDigest data))
    (h_lt : data.length < 2 ^ 24) (fuel : ℕ) :
    r.readData T fuel = .ok { r with
      pdu := { r.pdu with data := data, data_lt := h_lt }
      link := r.link.skip
        (if data = [] then [] else segment data ++ dataDigestBytes r.ses.getDataDigest data).length
      } := by
  have h_has : r.pdu.hasDigest = true := bne_iff_ne.mpr h_op
  unfold readData
  dsimp only
  rw [if_neg (show ¬r.pdu.bhs.getDataLength > T.build.maxDataSegmentSize by omega)]
  by_cases h_data : data = []
  · -- no data segment
    subst h_data
    rw [if_neg (show ¬r.pdu.bhs.getDataLength ≠ 0 from not_not.mpr h_len), if_pos rfl]
    obtain ⟨link, ses, ⟨bhs, ahsList, data, data_lt⟩, ok, pduError, crc⟩ := r
    subst h_empty
    rfl
  · have h_pos := List.length_pos_iff.mpr h_data
    rw [if_neg h_data] at h
    rw [if_pos (show r.pdu.bhs.getDataLength ≠ 0 by omega), if_neg h_data]
    obtain ⟨h_segment, h_digest⟩ := h.append
    have h_recv := h_segment.recv
    rw [length_segment] at h_digest
    rw [length_segment, ← h_len] at h_recv
    have h_take : (segment data).take r.pdu.bhs.getDataLength = data := by
      rw [h_len, segment, List.take_left]
    have h_set := @setData_of_not_login
      { r with link := r.link.skip (padded r.pdu.bhs.getDataLength) }
      data _ h_op h_take (length_take_dataLength _ _) h_lt
    rw [h_recv]
    dsimp only
    simp only [h_set]
    unfold readDataDigest
    -- the digest is over the padded data on both sides
    cases h_setting : r.ses.getDataDigest with
    | false =>
      rw [if_neg fun h_both => Bool.false_ne_true h_both.1,
        show dataDigestBytes false data = [] from rfl, List.append_nil, length_segment, h_len]
    | true =>
      rw [h_setting] at h_digest
      rw [if_pos ⟨rfl, h_has⟩, h_len]
      refine congrArg Except.ok ((readDigest_of_carries h_digest fun h_chk => ?_).trans ?_)
      · rw [if_pos h_chk]
      · rw [Link.skip_skip, List.length_append, length_segment]
        rfl

end Stages

/-! ### A whole frame -/

/-- **`receive_pdu`** reads a frame as it was laid out. Header, digest and data
are read in the order in which they stand, and nothing behind them is touched. -/
theorem receivePdu_of_carries {β : Type} {T : Target β} {ses : Session} {header : Header}
    {data : Bytes} {l : Link} (h_op : header.getOpcode ≠ .loginReq)
    (h_ahs : header.getAhsLength = 0) (h_len : header.getDataLength = data.length)
    (h_max : data.length ≤ T.build.maxDataSegmentSize)
    (h : l.Carries (layout ses.getHeaderDigest ses.getDataDigest header data))
    (h_lt : data.length < 2 ^ 24) (fuel : ℕ) :
    receivePdu T fuel l ses = .ok
      { pdu := some { bhs := header, data := data, data_lt := h_lt }
        failReason := if header.getOpcode = .other then .invalidCommand else .ok
        link := l.skip (layout ses.getHeaderDigest ses.getDataDigest header data).length
        ses := ses } := by
  unfold layout at h ⊢
  obtain ⟨h_front, h_data⟩ := h.append
  obtain ⟨h_header, h_digest⟩ := h_front.append
  have h_recv := h_header.recv
  rw [header.length_toList] at h_recv h_digest
  unfold receivePdu
  rw [h_recv]
  dsimp only
  rw [header.ofBytes_toList]
  -- no additional header segments
  have h_first : (firstReception (l.skip 48) ses header).readAhs fuel =
      .ok (firstReception (l.skip 48) ses header) := by
    unfold readAhs
    exact if_neg (not_not.mpr h_ahs)
  have h_second := @readHeaderDigest_of_carries _ T (firstReception (l.skip 48) ses header) h_op
    h_digest rfl
  rw [List.length_append, header.length_toList, ← Link.skip_skip] at h_data
  have h_third := @readData_of_carries _ T { firstReception (l.skip 48) ses header with
    link := (l.skip 48).skip (headerDigestBytes ses.getHeaderDigest header).length } data h_op h_len
    h_max rfl h_data h_lt fuel
  have h_end : ((l.skip 48).skip (headerDigestBytes ses.getHeaderDigest header).length).skip
      (if data = [] then [] else segment data ++ dataDigestBytes ses.getDataDigest data).length =
      l.skip (header.toList ++ headerDigestBytes ses.getHeaderDigest header ++
        if data = [] then []
        else segment data ++ dataDigestBytes ses.getDataDigest data).length := by
    rw [Link.skip_skip, Link.skip_skip, List.length_append, List.length_append,
      header.length_toList, Nat.add_assoc]
  have h_body := (congrArg (fun r => r.readData T fuel) h_second).trans h_third
  rw [← h_end]
  exact receiveBody_eq_ok.mpr ⟨_, _, h_first, h_body, rfl⟩

/-- **Frame round trip.** What `get_helper` writes for a header that names the
length of the data, `receive_pdu` reads: it takes just this frame off the
connection, finds both digests right, and has the header and the data. -/
theorem frame_roundTrip {β : Type} (T : Target β) (ses : Session) (memory : ℕ → UInt8)
    {header : Header} {data : Bytes} (h_op : header.getOpcode ≠ .loginReq)
    (h_ahs : header.getAhsLength = 0) (h_len : header.getDataLength = data.length)
    (h_max : data.length ≤ T.build.maxDataSegmentSize) :
    ∃ out, getHelper ses memory header data true = some out ∧
      ∀ l : Link, l.Carries out → ∀ fuel, ∃ res, receivePdu T fuel l ses = .ok res ∧
        res.link = l.skip out.length ∧
        res.failReason = (if header.getOpcode = .other then .invalidCommand else .ok) ∧
        ∃ q, res.pdu = some q ∧ q.bhs = header ∧ q.ahsList = [] ∧ q.data = data := by
  refine ⟨_, getHelper_eq ses memory header data true, fun l h fuel => ?_⟩
  rw [Bool.and_true, Bool.and_true] at h ⊢
  have h_lt : data.length < 2 ^ 24 := h_len ▸ header.getDataLength_lt
  exact ⟨_, receivePdu_of_carries h_op h_ahs h_len h_max h h_lt fuel, rfl, rfl, _, rfl, rfl, rfl,
    rfl⟩

/-- The header of a ping with five bytes. -/
def pingHeader : Header := Header.ofBytes ([0, 128, 0, 0, 0, 0, 0, 5] ++ zeros 40)

/-- A session with both digests. -/
def digestSession : Session :=
  { maxSegLen := 8192, allowDigest := true, headerDigest := true, dataDigest := true }

/-- A ping with three bytes of padding and both digests. -/
theorem frame_roundTrip_ping : ∃ out,
    getHelper digestSession (fun _ => 0xaa) pingHeader [1, 2, 3, 4, 5] true = some out ∧
      ∀ l : Link, l.Carries out → ∀ fuel, ∃ res,
        receivePdu (Sample.target 100) fuel l digestSession = .ok res ∧
        res.link = l.skip out.length ∧
        res.failReason = (if pingHeader.getOpcode = .other then .invalidCommand else .ok) ∧
        ∃ q, res.pdu = some q ∧ q.bhs = pingHeader ∧ q.ahsList = [] ∧ q.data = [1, 2, 3, 4, 5] :=
  frame_roundTrip (Sample.target 100) digestSession (fun _ => 0xaa) (by decide) (by decide)
    (by decide) (by decide)

end IscsiTarget
