import IscsiTarget.Lib.Run
import IscsiTarget.Model.Receive

/-!
# The stages of receiving a PDU

Each stage of `receive_pdu` either reads its bytes, or the connection ends within
them. `Reads r r' n bad` says so for one stage and for several in a row: `n` bytes are
read, `bad` tells whether a digest among them is wrong, and once the connection has
ended the later stages leave it at that (`Reads.trans`). `receiveBody_reads` puts the
stages together.

Three things keep the stages from coming to an end: an additional header segment that
starts with two zero bytes (`AhsStuck`), a data segment that is too long on a connection
that does not end, and a login parameter that is no number (`LoginThrows`).
-/

namespace IscsiTarget

/-! ### The connection -/

namespace Link

variable (l : Link)

/-- The next `n` bytes. -/
def ahead (n : ℕ) : Bytes := (List.range n).map fun i => l.bytes (l.pos + i)

/-- The next four bytes, as a digest is loaded. -/
def word : UInt32 :=
  nativeUint32 (l.bytes l.pos) (l.bytes (l.pos + 1)) (l.bytes (l.pos + 2)) (l.bytes (l.pos + 3))

/-- The connection `n` bytes on. -/
def skip (n : ℕ) : Link := { l with pos := l.pos + n }

/-- All the connection delivers has been read. -/
def Ended : Prop := ∃ e, l.eof = some e ∧ e ≤ l.pos

variable {l} {m n : ℕ}

@[simp] theorem skip_zero : l.skip 0 = l := rfl

@[simp] theorem length_ahead : (l.ahead n).length = n := by simp [ahead]

theorem skip_skip : (l.skip m).skip n = l.skip (m + n) := by simp [skip, Nat.add_assoc]

theorem delivers_skip : (l.skip m).Delivers n ↔ l.Delivers (m + n) := by
  simp [Delivers, skip, Nat.add_assoc]

theorem Delivers.mono (h : l.Delivers n) (hm : m ≤ n) : l.Delivers m :=
  fun e he => (Nat.add_le_add_left hm _).trans (h e he)

theorem recv_of_delivers (h : l.Delivers n) : l.recv n = (some (l.ahead n), l.skip n) := by
  rw [recv, if_pos h]
  rfl

/-- A connection that does not deliver enough has an end. -/
theorem exists_eof_of_not_delivers (h : ¬ l.Delivers n) : ∃ e, l.eof = some e ∧ e < l.pos + n := by
  unfold Delivers at h
  push Not at h
  exact h

/-- After a `recv` that fails nothing is left. -/
theorem recv_of_not_delivers (h : ¬ l.Delivers n) :
    ∃ l', l.recv n = (none, l') ∧ l'.Ended := by
  obtain ⟨e, he, -⟩ := exists_eof_of_not_delivers h
  rw [recv, if_neg h]
  exact ⟨_, rfl, e, he, by simp [he]⟩

/-- A connection without an end delivers everything. -/
theorem delivers_of_eof (h : l.eof = none) (n : ℕ) : l.Delivers n := by simp [Delivers, h]

theorem Ended.not_delivers (h : l.Ended) (hn : 0 < n) : ¬ l.Delivers n := by
  obtain ⟨e, he, hpos⟩ := h
  intro hd
  have h_le := hd e he
  omega

end Link

/-! ### What can keep a stage from ending -/

/-- Additional header segments are there, and they start with two zero bytes. -/
def AhsStuck (l : Link) (bhs : Header) : Prop :=
  bhs.getAhsLength ≠ 0 ∧ l.Delivers bhs.getAhsLength ∧ l.bytes l.pos = 0 ∧ l.bytes (l.pos + 1) = 0

/-- A login parameter that has to be a number and is none. -/
def BadNumber (kv : Bytes) : Prop :=
  ∃ key value rest f, split kv (ascii "=") = key :: value :: rest ∧
    key ∈ [ascii "MaxBurstLength", ascii "FirstBurstLength", ascii "MaxRecvDataSegmentLength"] ∧
    stoi value = .error f

/-! ### Reading -/

namespace Reception

variable {r r₁ r₂ : Reception} {n n₁ n₂ : ℕ} {bad bad₁ bad₂ : Prop}

/-- The connection has ended, and this is what will be reported. -/
structure Lost (r : Reception) : Prop where
  ended : r.link.Ended
  ok : r.ok = false
  pduError : r.pduError = .connection

/-- What a stage that reads `n` bytes leads to: they are there and have been
taken, or the connection is lost. `bad` is what the stage finds wrong with them,
which only a digest can be. -/
inductive Reads (r r' : Reception) (n : ℕ) (bad : Prop) : Prop
  /-- All of them are there. -/
  | complete (hlen : 0 < n → r.link.Delivers n) (hlink : r'.link = r.link.skip n)
    (hbad : bad → 0 < n ∧ r'.ok = false ∧ r'.pduError = .digest)
    (hgood : ¬ bad → r'.ok = r.ok ∧ r'.pduError = r.pduError)
  /-- The connection ends before. -/
  | cut (hpos : 0 < n) (hlen : ¬ r.link.Delivers n) (hlost : r'.Lost)

/-- A stage that has nothing to read. -/
theorem Reads.refl (r : Reception) : Reads r r 0 False :=
  .complete (fun h => absurd h (by omega)) rfl False.elim fun _ => ⟨rfl, rfl⟩

/-- A lost connection stays lost. -/
theorem Reads.lost (h : Reads r r₁ n bad) (hlost : r.Lost) : r₁.Lost := by
  cases h with
  | complete hlen hlink hbad hgood =>
    have h_n : ¬ 0 < n := fun hn => hlost.ended.not_delivers hn (hlen hn)
    obtain ⟨h_ok, h_error⟩ := hgood fun h => h_n (hbad h).1
    refine ⟨?_, h_ok.trans hlost.ok, h_error.trans hlost.pduError⟩
    rw [hlink, show n = 0 by omega]
    exact hlost.ended
  | cut hpos hlen hlost' => exact hlost'

/-- All the bytes are there: the link has moved on. -/
theorem Reads.link_of_delivers (h : Reads r r₁ n bad) (hlen : r.link.Delivers n) :
    r₁.link = r.link.skip n := by
  cases h with
  | complete _ hlink hbad hgood => exact hlink
  | cut hpos hlen' hlost => exact absurd hlen hlen'

/-- A connection that ends still ends. -/
theorem Reads.eof_ne_none (h : Reads r r₁ n bad) (heof : r.link.eof ≠ none) :
    r₁.link.eof ≠ none := by
  cases h with
  | complete _ hlink hbad hgood =>
    rw [hlink]
    exact heof
  | cut hpos hlen hlost =>
    obtain ⟨e, he, -⟩ := hlost.ended
    simp [he]

/-- **Two stages in a row.** The second one reads nothing when the connection
has been lost in the first, and keeps what the first one has found wrong. -/
theorem Reads.trans (h₁ : Reads r r₁ n₁ bad₁) (h₂ : Reads r₁ r₂ n₂ bad₂) :
    Reads r r₂ (n₁ + n₂) (bad₁ ∨ bad₂) := by
  cases h₁ with
  | complete hlen₁ hlink₁ hbad₁ hgood₁ =>
    cases h₂ with
    | complete hlen₂ hlink₂ hbad₂ hgood₂ =>
      -- the second stage finds the link where the first has left it
      rw [hlink₁, Link.delivers_skip] at hlen₂
      refine .complete (fun hpos => ?_) (by rw [hlink₂, hlink₁, Link.skip_skip]) (fun hbad => ?_)
        fun hgood => ?_
      · by_cases h : 0 < n₂
        · exact hlen₂ h
        · obtain rfl : n₂ = 0 := by omega
          exact hlen₁ hpos
      · by_cases h : bad₂
        · obtain ⟨h_pos, h_ok⟩ := hbad₂ h
          exact ⟨by omega, h_ok⟩
        · obtain ⟨h_pos, h_ok, h_error⟩ := hbad₁ (hbad.resolve_right h)
          exact ⟨by omega, (hgood₂ h).1.trans h_ok, (hgood₂ h).2.trans h_error⟩
      · have h₁ := hgood₁ fun h => hgood (.inl h)
        have h₂ := hgood₂ fun h => hgood (.inr h)
        exact ⟨h₂.1.trans h₁.1, h₂.2.trans h₁.2⟩
    | cut hpos hlen₂ hlost =>
      rw [hlink₁, Link.delivers_skip] at hlen₂
      -- the connection is lost in the second stage
      exact .cut (by omega) hlen₂ hlost
  -- it was lost in the first, and the second makes nothing of it
  | cut hpos hlen₁ hlost =>
    exact .cut (by omega) (fun h => hlen₁ (h.mono (by omega))) (h₂.lost hlost)

/-- A `recv` that fails. -/
theorem lost_connectionLost {l : Link} (h : l.Ended) : (r.connectionLost l).Lost := ⟨h, rfl, rfl⟩

/-! ### Additional header segments -/

/-- A header segment always claims three bytes more than it is given: none is
kept. -/
theorem ahsSet_eq_none (ahsIn : Bytes) :
    ahsSet ahsIn ((ahsIn.getD 0 0).toNat * 256 + (ahsIn.getD 1 0).toNat) = none := by
  unfold ahsSet
  split
  · rfl
  · rw [if_pos (by omega)]

/-- The loop over the segments ends in its first turn, unless they start with
two zero bytes. -/
theorem setAhsLoop_ok {ahsIn : Bytes} (h : ¬ (ahsIn.getD 0 0 = 0 ∧ ahsIn.getD 1 0 = 0))
    (fuel : ℕ) (ahsList : List Bytes) : ∃ res, setAhsLoop ahsIn (fuel + 1) 0 ahsList = .ok res := by
  -- the length is not zero, so this turn is no idle one
  have h_pos : (ahsIn.getD 0 0).toNat * 256 + (ahsIn.getD (0 + 1) 0).toNat > 0 := by
    by_contra hz
    refine h ⟨UInt8.toNat_inj.mp ?_, UInt8.toNat_inj.mp ?_⟩ <;> simp at hz ⊢ <;> omega
  rw [setAhsLoop]
  split
  · dsimp only
    split
    · exact ⟨_, rfl⟩
    · -- `ahs::set` takes no segment, which ends the loop as well
      rw [List.drop_zero, Nat.zero_add, ahsSet_eq_none]
      exact ⟨_, rfl⟩
  · exact ⟨_, rfl⟩

/-- With two zero bytes at the start the loop stays where it is. -/
theorem setAhsLoop_stuck {ahsIn : Bytes} (h₀ : ahsIn.getD 0 0 = 0) (h₁ : ahsIn.getD 1 0 = 0)
    (hlen : 3 < ahsIn.length) (fuel : ℕ) (ahsList : List Bytes) :
    setAhsLoop ahsIn fuel 0 ahsList = .error .outOfFuel := by
  induction fuel with
  | zero => rfl
  | succ fuel ih =>
    rw [setAhsLoop, if_pos (by omega)]
    simp only [h₀, h₁, Nat.zero_add]
    rw [if_neg (by simp; omega), if_neg (by simp), ih]

theorem getAhsLength_ge {bhs : Header} (h : bhs.getAhsLength ≠ 0) : 4 ≤ bhs.getAhsLength := by
  unfold Header.getAhsLength at *
  omega

/-- The first bytes of what is read. -/
theorem getD_ahead {l : Link} {n i : ℕ} (h : i < n) :
    (l.ahead n).getD i 0 = l.bytes (l.pos + i) := by
  rw [List.getD_eq_getElem?_getD]
  simp [Link.ahead, h]

/-- The digest of the header and of the additional header segments behind it. -/
def headerCrc (l : Link) (bhs : Header) (crc : UInt32 × UInt32) : UInt32 :=
  if bhs.getAhsLength = 0 then crc.1
  else (crc32c (l.ahead bhs.getAhsLength) (some crc.2)).1

/-- **The additional header segments**, when they do not hold up the loop. They
are read as a whole, and the checksum goes on over them. -/
theorem readAhs_reads (h : ¬ AhsStuck r.link r.pdu.bhs) (fuel : ℕ) :
    ∃ r', r.readAhs (fuel + 1) = .ok r' ∧ Reads r r' r.pdu.bhs.getAhsLength False ∧
      r'.ses = r.ses ∧ r'.pdu.bhs = r.pdu.bhs ∧
      (r.link.Delivers r.pdu.bhs.getAhsLength → r'.crc.1 = headerCrc r.link r.pdu.bhs r.crc) := by
  by_cases h_len : r.pdu.bhs.getAhsLength = 0
  · -- no segments
    refine ⟨r, by simp [readAhs, h_len], ?_, rfl, rfl, fun _ => by simp [headerCrc, h_len]⟩
    rw [h_len]
    exact .refl r
  · by_cases h_del : r.link.Delivers r.pdu.bhs.getAhsLength
    · -- they have come as a whole
      have h_ge := getAhsLength_ge h_len
      have h_first : ¬ ((r.link.ahead r.pdu.bhs.getAhsLength).getD 0 0 = 0 ∧
          (r.link.ahead r.pdu.bhs.getAhsLength).getD 1 0 = 0) := by
        rw [getD_ahead (by omega), getD_ahead (by omega)]
        exact fun h₀ => h ⟨h_len, h_del, h₀⟩
      obtain ⟨res, h_res⟩ := setAhsLoop_ok h_first fuel r.pdu.ahsList
      simp only [readAhs, ne_eq, h_len, not_false_eq_true, if_true, Link.recv_of_delivers h_del,
        Pdu.setAhsSegment, h_res, Except.map]
      refine ⟨_, rfl, .complete (fun _ => h_del) rfl False.elim fun _ => ⟨rfl, rfl⟩, rfl, rfl,
        fun _ => ?_⟩
      simp [headerCrc, h_len]
    · -- the connection is lost in the middle of them
      obtain ⟨l, h_recv, h_end⟩ := Link.recv_of_not_delivers h_del
      refine ⟨r.connectionLost l, ?_, .cut (Nat.pos_of_ne_zero h_len) h_del
        (lost_connectionLost h_end), rfl, rfl, fun h => absurd h h_del⟩
      simp only [readAhs, ne_eq, h_len, not_false_eq_true, if_true, h_recv]

/-- More turns do not change what the loop has come to. By induction on the
turns. -/
theorem setAhsLoop_mono {ahsIn : Bytes} {fuel offset : ℕ} {ahsList : List Bytes}
    {res : Bool × List Bytes} (h : setAhsLoop ahsIn fuel offset ahsList = .ok res) :
    setAhsLoop ahsIn (fuel + 1) offset ahsList = .ok res := by
  induction fuel generalizing offset ahsList with
  | zero => simp [setAhsLoop] at h
  | succ fuel ih =>
    rw [setAhsLoop] at h ⊢
    -- both loops take the same branch, and when they go round again the induction does
    split at h
    · next h_more =>
      rw [if_pos h_more]
      dsimp only at h ⊢
      split at h
      · next h_long => rwa [if_pos h_long]
      · next h_long =>
        rw [if_neg h_long]
        split at h
        · next h_pos =>
          rw [if_pos h_pos]
          split at h
          · exact h
          · exact ih h
        · next h_pos =>
          rw [if_neg h_pos]
          exact ih h
    · next h_more => rwa [if_neg h_more]

theorem readAhs_mono {fuel : ℕ} (h : r.readAhs fuel = .ok r₁) : r.readAhs (fuel + 1) = .ok r₁ := by
  unfold readAhs at h ⊢
  dsimp only at h ⊢
  split at h
  · next h_len =>
    rw [if_pos h_len]
    split at h
    · exact h
    · next ahsTemp link h_recv =>
      cases h_loop : setAhsLoop ahsTemp fuel 0 r.pdu.ahsList with
      | error f => simp [Pdu.setAhsSegment, h_loop, Except.map] at h
      | ok res =>
        simp only [Pdu.setAhsSegment, h_loop, Except.map] at h
        simp only [Pdu.setAhsSegment, setAhsLoop_mono h_loop, Except.map]
        exact h
  · next h_len => rwa [if_neg h_len]

/-- Segments that hold up the loop. It stays in place, so that no number of
turns is enough. -/
theorem readAhs_stuck (h : AhsStuck r.link r.pdu.bhs) (fuel : ℕ) :
    r.readAhs fuel = .error .outOfFuel := by
  obtain ⟨h_len, h_del, h₀, h₁⟩ := h
  have h_ge := getAhsLength_ge h_len
  have h_loop : setAhsLoop (r.link.ahead r.pdu.bhs.getAhsLength) fuel 0 r.pdu.ahsList =
      .error .outOfFuel := by
    refine setAhsLoop_stuck ?_ ?_ (by rw [Link.length_ahead]; omega) fuel _
    · rw [getD_ahead (by omega)]
      exact h₀
    · rw [getD_ahead (by omega)]
      exact h₁
  simp only [readAhs, ne_eq, h_len, not_false_eq_true, if_true, Link.recv_of_delivers h_del,
    Pdu.setAhsSegment, h_loop, Except.map]

/-! ### Digests -/

variable {β : Type} {T : Target β}

/-- **A digest.** Four bytes are read even when digests are not checked, and
then they do not matter. -/
theorem readDigest_reads (r : Reception) (crc : UInt32) :
    Reads r (r.readDigest T crc) 4 (r.link.word ≠ crc ∧ T.digestChk = true) ∧
      (r.readDigest T crc).ses = r.ses ∧ (r.readDigest T crc).pdu = r.pdu := by
  by_cases h : r.link.Delivers 4
  · -- the four bytes, in the order the machine has them in
    have h_word : nativeUint32 ((r.link.ahead 4).getD 0 0) ((r.link.ahead 4).getD 1 0)
        ((r.link.ahead 4).getD 2 0) ((r.link.ahead 4).getD 3 0) = r.link.word := by
      simp only [getD_ahead, Nat.ofNat_pos, Nat.one_lt_ofNat, Nat.reduceLT, Nat.add_zero,
        Link.word]
    rw [readDigest, Link.recv_of_delivers h]
    simp only [h_word]
    split
    · next hbad =>
      exact ⟨.complete (fun _ => h) rfl (fun _ => ⟨by omega, rfl, rfl⟩) fun hgood =>
        absurd hbad hgood, rfl, rfl⟩
    · next hgood =>
      exact ⟨.complete (fun _ => h) rfl (fun hbad => absurd hbad hgood) fun _ => ⟨rfl, rfl⟩,
        rfl, rfl⟩
  · -- the connection is lost in the digest
    obtain ⟨l, h_recv, h_end⟩ := Link.recv_of_not_delivers h
    rw [readDigest, h_recv]
    exact ⟨.cut (by omega) h (lost_connectionLost h_end), rfl, rfl⟩

/-- A digest is sent along, `on` being the setting for it. Logins have none. -/
def HasDigest (on : Bool) (bhs : Header) : Prop := on = true ∧ bhs.getOpcode ≠ .loginReq

instance (on : Bool) (bhs : Header) : Decidable (HasDigest on bhs) :=
  inferInstanceAs (Decidable (_ ∧ _))

/-- The number of bytes of such a digest. -/
def digestLength (on : Bool) (bhs : Header) : ℕ := if HasDigest on bhs then 4 else 0

/-- A digest that may be there. If it is not in force, or the PDU has none,
nothing is read. -/
theorem readDigest_if_reads (r : Reception) (on : Bool) (crc : UInt32) :
    let r' := if on = true ∧ r.pdu.hasDigest = true then r.readDigest T crc else r
    Reads r r' (digestLength on r.pdu.bhs)
        (HasDigest on r.pdu.bhs ∧ r.link.word ≠ crc ∧ T.digestChk = true) ∧
      r'.ses = r.ses ∧ r'.pdu = r.pdu := by
  have h_iff : (on = true ∧ r.pdu.hasDigest = true) ↔ HasDigest on r.pdu.bhs := by
    simp [HasDigest, Pdu.hasDigest]
  dsimp only
  by_cases h : HasDigest on r.pdu.bhs
  · rw [if_pos (h_iff.mpr h), digestLength, if_pos h]
    simp only [h, true_and]
    exact readDigest_reads r crc
  · rw [if_neg (mt h_iff.mp h), digestLength, if_neg h]
    -- no digest is due, so nothing is read
    refine ⟨?_, rfl, rfl⟩
    simp only [h, false_and]
    exact .refl r

/-! ### Data segments -/

/-- A number that cannot be parsed ends the login. -/
theorem minStoi_ok_iff (v : UInt32) (value : Bytes) :
    (∃ v', minStoi v value = .ok v') ↔ ¬ ∃ f, stoi value = .error f := by
  unfold minStoi
  cases stoi value <;> simp

theorem map_ok_iff {α γ ε : Type} (f : α → γ) (x : Except ε α) :
    (∃ y, x.map f = .ok y) ↔ ∃ a, x = .ok a := by
  cases x <;> simp [Except.map]

/-- One parameter of a login. `std::stoi` throws when the number is missing or
too large, and that is the only thing that can go wrong. -/
theorem loginParam_ok_iff (p : LoginParams) (kv : Bytes) :
    (∃ p', loginParam p kv = .ok p') ↔ ¬ BadNumber kv := by
  unfold loginParam BadNumber
  split
  · next key value rest heq =>
    have h_bad : (∃ key' value' rest' f, split kv (ascii "=") = key' :: value' :: rest' ∧
        key' ∈ [ascii "MaxBurstLength", ascii "FirstBurstLength",
          ascii "MaxRecvDataSegmentLength"] ∧ stoi value' = .error f) ↔
        key ∈ [ascii "MaxBurstLength", ascii "FirstBurstLength",
          ascii "MaxRecvDataSegmentLength"] ∧ ∃ f, stoi value = .error f := by
      rw [heq]
      constructor
      · rintro ⟨key', value', rest', f, h_eq, h_key, h_f⟩
        simp only [List.cons.injEq] at h_eq
        obtain ⟨rfl, rfl, -⟩ := h_eq
        exact ⟨h_key, f, h_f⟩
      · rintro ⟨h_key, f, h_f⟩
        exact ⟨key, value, rest, f, rfl, h_key, h_f⟩
    rw [h_bad]
    split
    · next h => simp [map_ok_iff, minStoi_ok_iff, h]
    · split
      · next h => simp [map_ok_iff, minStoi_ok_iff, h]
      · split
        · next h => simp [map_ok_iff, minStoi_ok_iff, h]
        · next h₁ h₂ h₃ =>
          -- every other parameter is taken as it is
          have h_key : key ∉ [ascii "MaxBurstLength", ascii "FirstBurstLength",
              ascii "MaxRecvDataSegmentLength"] := by simp [h₁, h₂, h₃]
          refine iff_of_true ?_ fun h => h_key h.1
          split
          · exact ⟨_, rfl⟩
          · split <;> exact ⟨_, rfl⟩
  · next hne =>
    refine iff_of_true ⟨_, rfl⟩ ?_
    rintro ⟨key, value, rest, f, h_eq, -⟩
    exact hne key value rest h_eq

/-- The parameters of a login are taken when none of them is a bad number. -/
theorem loginParams_ok_iff (kvs : List Bytes) (p : LoginParams) :
    (∃ p', loginParams kvs p = .ok p') ↔ ∀ kv ∈ kvs, ¬ BadNumber kv := by
  induction kvs generalizing p with
  | nil => simp [loginParams]
  | cons kv kvs ih =>
    rw [List.forall_mem_cons, ← loginParam_ok_iff p kv, loginParams]
    cases h : loginParam p kv with
    | ok p' => simp [ih]
    | error f => simp

theorem loginSetData_ok_iff (ses : Session) (data : Bytes) :
    (∃ ses', loginSetData ses data = .ok ses') ↔ ∀ kv ∈ dataToTextArray data, ¬ BadNumber kv := by
  rw [← loginParams_ok_iff _ { maxBurst := 0xffffffff, maxSegLen := ses.maxSegLen, ses := ses },
    loginSetData]
  cases loginParams (dataToTextArray data)
    { maxBurst := 0xffffffff, maxSegLen := ses.maxSegLen, ses := ses } <;> simp

/-- The data segment of a login has come, and a parameter in it is a bad number. -/
def LoginThrows (l : Link) (bhs : Header) : Prop :=
  bhs.getOpcode = .loginReq ∧ bhs.getDataLength ≠ 0 ∧ l.Delivers (padded bhs.getDataLength) ∧
    ∃ kv ∈ dataToTextArray ((l.ahead (padded bhs.getDataLength)).take bhs.getDataLength),
      BadNumber kv

/-- The number of bytes of the data segment, with padding and digest. -/
def dataLength (ses : Session) (bhs : Header) : ℕ :=
  if bhs.getDataLength = 0 then 0
  else padded bhs.getDataLength + digestLength ses.getDataDigest bhs

/-- There is a data digest, and it is not that of the data. -/
def DataDigestWrong (T : Target β) (l : Link) (ses : Session) (bhs : Header) : Prop :=
  bhs.getDataLength ≠ 0 ∧ HasDigest ses.getDataDigest bhs ∧
    (l.skip (padded bhs.getDataLength)).word ≠
      (crc32c (l.ahead (padded bhs.getDataLength)) none).1 ∧ T.digestChk = true

theorem padded_pos {n : ℕ} (h : n ≠ 0) : 0 < padded n := by
  unfold padded
  omega

/-- `set_data` of a data segment that has come: the digest settings of anything
but a login are left alone. -/
theorem setData_ok {data : Bytes} (hlen : data.length < 2 ^ 24)
    (h : r.pdu.bhs.getOpcode = .loginReq → ∀ kv ∈ dataToTextArray data, ¬ BadNumber kv) :
    ∃ r', r.setData data hlen = .ok r' ∧ r'.link = r.link ∧ r'.ok = r.ok ∧
      r'.pduError = r.pduError ∧ r'.pdu.bhs = r.pdu.bhs ∧
      (r.pdu.bhs.getOpcode ≠ .loginReq → r'.ses = r.ses) := by
  unfold setData
  by_cases hop : r.pdu.bhs.getOpcode = .loginReq
  · -- a login is read for its settings, and only a number that cannot be read stops that
    obtain ⟨ses', h_ses⟩ := (loginSetData_ok_iff r.ses data).mpr (h hop)
    simp only [hop, h_ses, Except.map]
    exact ⟨_, rfl, rfl, rfl, rfl, rfl, fun hne => absurd rfl hne⟩
  · refine ⟨{ r with pdu := { r.pdu with data := data, data_lt := hlen } }, ?_, rfl, rfl, rfl, rfl,
      fun _ => rfl⟩
    split
    · next heq => exact absurd heq hop
    · rfl

/-- A login parameter that is no number. -/
theorem setData_error {data : Bytes} (hlen : data.length < 2 ^ 24)
    (hop : r.pdu.bhs.getOpcode = .loginReq) (h : ∃ kv ∈ dataToTextArray data, BadNumber kv) :
    ∃ f, r.setData data hlen = .error f := by
  have h_not : ¬ ∃ ses', loginSetData r.ses data = .ok ses' := by
    rw [loginSetData_ok_iff]
    push Not
    exact h
  unfold setData
  simp only [hop]
  cases hl : loginSetData r.ses data with
  | ok ses' => exact absurd ⟨ses', hl⟩ h_not
  | error f => exact ⟨f, rfl⟩

/-- **The data segment**, when it is not too long and no login parameter is bad.
It is read with its padding and its digest; a login has none. -/
theorem readData_reads (hmax : r.pdu.bhs.getDataLength ≤ T.build.maxDataSegmentSize)
    (hthrows : ¬ LoginThrows r.link r.pdu.bhs) (fuel : ℕ) :
    ∃ r', r.readData T fuel = .ok r' ∧
      Reads r r' (dataLength r.ses r.pdu.bhs) (DataDigestWrong T r.link r.ses r.pdu.bhs) := by
  by_cases h_len : r.pdu.bhs.getDataLength = 0
  · refine ⟨r, by simp [readData, h_len], ?_⟩
    simp only [dataLength, DataDigestWrong, h_len, if_true, ne_eq, not_true_eq_false, false_and]
    exact .refl r
  have h_pos := padded_pos h_len
  have h_eq : dataLength r.ses r.pdu.bhs =
      padded r.pdu.bhs.getDataLength + digestLength r.ses.getDataDigest r.pdu.bhs := if_neg h_len
  rw [h_eq]
  by_cases h_del : r.link.Delivers (padded r.pdu.bhs.getDataLength)
  · obtain ⟨r₁, h_set, h_link, h_ok, h_error, h_bhs, h_ses⟩ := setData_ok
      (r := { r with link := r.link.skip (padded r.pdu.bhs.getDataLength) })
      (length_take_dataLength r.pdu.bhs (r.link.ahead (padded r.pdu.bhs.getDataLength)))
      (fun hop kv hkv hbad => hthrows ⟨hop, h_len, h_del, kv, hkv, hbad⟩)
    obtain ⟨h_digest, -, -⟩ := readDigest_if_reads (T := T) r₁ r₁.ses.getDataDigest
      (if T.digestChk then (crc32c (r.link.ahead (padded r.pdu.bhs.getDataLength)) none).1 else 0)
    have h_first : Reads r r₁ (padded r.pdu.bhs.getDataLength) False :=
      .complete (fun _ => h_del) h_link False.elim fun _ => ⟨h_ok, h_error⟩
    -- a login changes the settings, but it has no digest
    have h_has : HasDigest r₁.ses.getDataDigest r₁.pdu.bhs ↔
        HasDigest r.ses.getDataDigest r.pdu.bhs := by
      rw [h_bhs]
      by_cases hop : r.pdu.bhs.getOpcode = .loginReq
      · simp [HasDigest, hop]
      · rw [h_ses hop]
    have h_read : r.readData T fuel = .ok (r₁.readDataDigest T
        (if T.digestChk then (crc32c (r.link.ahead (padded r.pdu.bhs.getDataLength)) none).1
          else 0)) := by
      rw [readData]
      dsimp only
      rw [if_neg (by omega), if_pos h_len, Link.recv_of_delivers h_del]
      simp only [h_set]
    have h_length : digestLength r₁.ses.getDataDigest r₁.pdu.bhs =
        digestLength r.ses.getDataDigest r.pdu.bhs := by simp only [digestLength, h_has]
    have h_bad : (False ∨ HasDigest r₁.ses.getDataDigest r₁.pdu.bhs ∧ (r₁.link.word ≠
        if T.digestChk = true then (crc32c (r.link.ahead (padded r.pdu.bhs.getDataLength)) none).1
          else 0) ∧ T.digestChk = true) ↔ DataDigestWrong T r.link r.ses r.pdu.bhs := by
      rw [h_has, h_link]
      by_cases h_chk : T.digestChk = true <;> simp [DataDigestWrong, h_len, h_chk]
    have h_both := h_first.trans h_digest
    rw [h_length, h_bad] at h_both
    exact ⟨_, h_read, h_both⟩
  · obtain ⟨l, h_recv, h_end⟩ := Link.recv_of_not_delivers h_del
    obtain ⟨h_digest, -, -⟩ := readDigest_if_reads (T := T) (r.connectionLost l)
      r.ses.getDataDigest 0
    refine ⟨(r.connectionLost l).readDataDigest T 0, ?_,
      .cut (by omega) (fun h => h_del (h.mono (by omega)))
        (h_digest.lost (lost_connectionLost h_end))⟩
    rw [readData]
    dsimp only
    rw [if_neg (by omega), if_pos h_len, h_recv]

/-- A login with a bad number does not get past its data. -/
theorem readData_throws (h : LoginThrows r.link r.pdu.bhs)
    (hmax : r.pdu.bhs.getDataLength ≤ T.build.maxDataSegmentSize) (fuel : ℕ) :
    ∃ f, r.readData T fuel = .error f := by
  obtain ⟨hop, h_len, h_del, h_bad⟩ := h
  obtain ⟨f, h_set⟩ := setData_error
    (r := { r with link := r.link.skip (padded r.pdu.bhs.getDataLength) })
    (length_take_dataLength r.pdu.bhs (r.link.ahead (padded r.pdu.bhs.getDataLength))) hop h_bad
  refine ⟨f, ?_⟩
  rw [readData]
  dsimp only
  rw [if_neg (by omega), if_pos h_len, Link.recv_of_delivers h_del]
  simp only [h_set]

/-! ### Data segments that are too long -/

/-- The loop that is to skip them ends with the connection, if that ends. By
induction on the fuel: a turn that does not end it has taken a byte at least. -/
theorem drain_ok {n : ℕ} (hn : 0 < n) {e : ℕ} (fuel : ℕ) (l : Link) (he : l.eof = some e)
    (hfuel : e ≤ l.pos + fuel) : ∃ l', drain n (fuel + 1) l = .ok l' ∧ l'.Ended := by
  induction fuel generalizing l with
  | zero =>
    obtain ⟨l', h_recv, h_end⟩ := Link.recv_of_not_delivers
      (Link.Ended.not_delivers (l := l) ⟨e, he, hfuel⟩ (n := min n 32) (by omega))
    exact ⟨l', by rw [drain, h_recv], h_end⟩
  | succ fuel ih =>
    rw [drain]
    by_cases h_del : l.Delivers (min n 32)
    · rw [Link.recv_of_delivers h_del]
      -- 32 bytes less, and the end of the link comes closer
      refine ih (l.skip (min n 32)) he ?_
      simp only [Link.skip]
      omega
    · obtain ⟨l', h_recv, h_end⟩ := Link.recv_of_not_delivers h_del
      rw [h_recv]
      exact ⟨l', rfl, h_end⟩

/-- On a connection that does not end it does not end. -/
theorem drain_never {n : ℕ} (fuel : ℕ) (l : Link) (he : l.eof = none) :
    drain n fuel l = .error .outOfFuel := by
  induction fuel generalizing l with
  | zero => rfl
  | succ fuel ih =>
    rw [drain, Link.recv_of_delivers (Link.delivers_of_eof he _)]
    exact ih (l.skip (min n 32)) he

/-- A data segment that is too long: the connection is lost, or there is no end.
The code reads on until nothing comes any more. -/
theorem readData_oversize (hmax : T.build.maxDataSegmentSize < r.pdu.bhs.getDataLength) :
    (r.link.eof = none → ∀ fuel, r.readData T fuel = .error .outOfFuel) ∧
      (∀ fuel r', r.readData T fuel = .ok r' → r'.pduError = .connection) ∧
      (r.link.eof ≠ none → ∃ fuel r', r.readData T (fuel + 1) = .ok r') := by
  have h_eq (fuel : ℕ) : r.readData T fuel =
      (drain r.pdu.bhs.getDataLength fuel r.link).map r.connectionLost := by
    rw [readData]
    refine (if_pos hmax).trans ?_
    cases drain r.pdu.bhs.getDataLength fuel r.link <;> rfl
  refine ⟨fun he fuel => ?_, fun fuel r' h => ?_, fun he => ?_⟩
  · -- the link has no end, so the loop has none
    rw [h_eq, drain_never fuel r.link he]
    rfl
  · rw [h_eq] at h
    -- when the loop ends, it is because the connection did
    cases hd : drain r.pdu.bhs.getDataLength fuel r.link with
    | error f => simp [hd, Except.map] at h
    | ok link =>
      rw [hd] at h
      rw [← Except.ok.inj h]
      rfl
  · -- and it ends once the link is at its end
    obtain ⟨e, he⟩ := Option.ne_none_iff_exists'.mp he
    obtain ⟨l', h_drain, -⟩ := drain_ok (n := r.pdu.bhs.getDataLength) (by omega) e r.link he
      (by omega)
    exact ⟨e, r.connectionLost l', by rewrite [h_eq, h_drain]; rfl⟩

end Reception

end IscsiTarget
