import IscsiTarget.Receive.Framing

/-!
# The error path of the handler

When something is wrong with a PDU the connection handler builds a reject and sends it.
There is nothing to build it from when `receive_pdu` has not delivered a PDU
(`EmptyBlob`), and then `reject.value()` is evaluated on an empty optional.

A wrong digest is what makes `receive_pdu` report a failure other than that of the
connection and keep the PDU to itself. `neverEmpty_iff` says that it is the only thing,
for every state and along every run of the handler.
-/

namespace IscsiTarget

open Reception

variable {β : Type} (T : Target β)

/-- The handler gets to the send of the reject, and no reject has been built. It
takes the value of an empty optional there. -/
def EmptyBlob (fuel : ℕ) (h : Handler β) : Prop :=
  ∃ incoming ifr c, receivePdu T fuel h.link h.conn.ses = .ok incoming ∧
    pushReceived T fuel { h.conn with ses := incoming.ses } incoming.pdu incoming.failReason =
      .ok (ifr, c) ∧
    (ifr ≠ .ok ∧ ifr ≠ .connection) ∧ buildReject T incoming.pdu ifr = .empty

/-- The PDU that comes next arrives as a whole, is read to its end, and one of
its digests is wrong. -/
def WrongDigest (l : Link) (ses : Session) : Prop :=
  l.Delivers (frameLength ses l.header) ∧ ¬ AhsStuck (l.skip 48) l.header ∧ DataFits T l ∧
    DigestWrong T (l.skip 48) ses l.header

variable {T}

/-- A digest can only be wrong where there is one, and a login has none. -/
theorem DigestWrong.not_login {l : Link} {ses : Session} {bhs : Header}
    (h : DigestWrong T l ses bhs) : bhs.getOpcode ≠ .loginReq := by
  rcases h with ⟨h_has, -⟩ | ⟨-, h_has, -⟩
  · exact h_has.2
  · exact h_has.2

/-- **When a PDU is held back** although the connection is fine: one of its
digests is wrong, and the target checks digests. -/
theorem wrongDigest_iff (fuel : ℕ) (l : Link) (ses : Session) :
    (∃ res, receivePdu T (fuel + 1) l ses = .ok res ∧ res.pdu = none ∧
      res.failReason ≠ .ok ∧ res.failReason ≠ .connection) ↔ WrongDigest T l ses := by
  constructor
  · rintro ⟨res, h_ok, h_pdu, -, h_reason⟩
    have h_del : l.Delivers 48 := by
      by_contra h
      obtain ⟨l', h_recv, -⟩ := Link.recv_of_not_delivers h
      rw [receivePdu, h_recv] at h_ok
      exact h_reason (congrArg Received.failReason (Except.ok.inj h_ok)).symm
    rw [receivePdu_of_delivers h_del] at h_ok
    obtain ⟨h_ahs, h_login, h_long⟩ := receiveBody_of_ok h_ok
    have h_fits : DataFits T l := by
      by_contra h
      exact h_reason (h_long (not_le.mp h)).1
    obtain ⟨r, h_body, bad, h_reads, h_bad⟩ :=
      receiveBody_reads (T := T) ses h_ahs h_fits (h_login h_fits) fuel
    obtain rfl := Except.ok.inj (h_body.symm.trans h_ok)
    cases h_reads with
    | complete hlen hlink hbad hgood =>
      have h_all : l.Delivers (frameLength ses l.header) := by
        by_cases h : 0 < bodyLength ses l.header
        · exact Link.delivers_skip.mp (hlen h)
        · rwa [frameLength, show bodyLength ses l.header = 0 by omega]
      refine ⟨h_all, h_ahs, h_fits, (h_bad (Link.delivers_skip.mpr h_all)).mp ?_⟩
      by_contra h
      -- nothing is wrong, so the PDU is delivered
      have h_ok : r.ok = true := (hgood h).1
      simp [received, h_ok] at h_pdu
    | cut hpos hlen hlost => exact absurd hlost.pduError h_reason
  · rintro ⟨h_del, h_ahs, h_fits, h_wrong⟩
    have h_header : l.Delivers 48 := h_del.mono (by unfold frameLength; omega)
    obtain ⟨r, h_body, bad, h_reads, h_bad⟩ := receiveBody_reads (T := T) ses h_ahs h_fits
      (fun h => h_wrong.not_login h.1) fuel
    refine ⟨r.received, (receivePdu_of_delivers h_header _ _).trans h_body, ?_⟩
    have h_body_del := Link.delivers_skip.mpr h_del
    cases h_reads with
    | complete hlen hlink hbad hgood =>
      obtain ⟨-, h_ok, h_error⟩ := hbad ((h_bad h_body_del).mpr h_wrong)
      simp [received, h_ok, h_error]
    | cut hpos hlen hlost => exact absurd h_body_del hlen

/-- A reject can be made of every PDU, or the handler goes on with the next one. -/
theorem buildReject_eq_empty_iff (pdu : Option Pdu) (ifr : FailReason) :
    buildReject T pdu ifr = .empty ↔ pdu = none := by
  cases pdu with
  | none => simp [buildReject]
  | some q =>
    refine iff_of_false ?_ (by simp)
    unfold buildReject
    dsimp only
    split
    · simp
    · split <;> simp

/-- `push_response` is not reached without a PDU. -/
theorem pushReceived_of_none {fuel : ℕ} {c : Conn β} {ifr : FailReason}
    {r : FailReason × Conn β} (h : pushReceived T fuel c none ifr = .ok r) :
    ifr ≠ .ok ∧ r = (ifr, c) := by
  unfold pushReceived at h
  split at h
  · exact absurd h (by simp)
  · next hne => exact ⟨hne, (Except.ok.inj h).symm⟩

/-- **The handler in one state** gets to the empty reject exactly when the PDU
that comes next has a wrong digest. -/
theorem emptyBlob_iff (fuel : ℕ) (h : Handler β) :
    EmptyBlob T (fuel + 1) h ↔ WrongDigest T h.link h.conn.ses := by
  rw [← wrongDigest_iff fuel]
  constructor
  · rintro ⟨incoming, ifr, c, h_receive, h_push, ⟨-, h_conn⟩, h_empty⟩
    rw [buildReject_eq_empty_iff] at h_empty
    rw [h_empty] at h_push
    obtain ⟨h_ok, h_eq⟩ := pushReceived_of_none h_push
    obtain rfl : ifr = incoming.failReason := congrArg Prod.fst h_eq
    exact ⟨incoming, h_receive, h_empty, h_ok, h_conn⟩
  · rintro ⟨res, h_receive, h_pdu, h_ok, h_conn⟩
    exact ⟨res, res.failReason, { h.conn with ses := res.ses }, h_receive, if_neg h_ok,
      ⟨h_ok, h_conn⟩, (buildReject_eq_empty_iff _ _).mpr h_pdu⟩

/-- **The handler's error path.** Along every run of the handler, from any
state, a blob has been built whenever it gets to the send exactly when no PDU
that arrives has a wrong digest. A wrong digest is the one failure for which no
reject is built, and the handler takes the value of the empty optional all the
same. -/
theorem neverEmpty_iff (fuel : ℕ) (h : Handler β) (turns : List Unit) :
    Machine.Along (Handler.step T (fuel + 1)) (fun h _ => h.ok = true → ¬ EmptyBlob T (fuel + 1) h)
        h turns ↔
      Machine.Along (Handler.step T (fuel + 1))
        (fun h _ => h.ok = true → ¬ WrongDigest T h.link h.conn.ses) h turns :=
  Machine.along_congr (fun h _ => by rw [emptyBlob_iff]) h turns

/-- A stream that starts with a login that asks for header digests and goes on
with a NOP-Out whose header digest is zero. -/
def Sample.digestLogin : Link :=
  { bytes := fun i => ((([0x43, 0x81, 0, 0, 0, 0, 0, 20] : Bytes) ++ zeros 40) ++
      ascii "HeaderDigest=CRC32C").getD i 0 }

/-- After the login the wrong digest gets the handler to a reject that is not
there. The login has put the digests into force. -/
theorem handler_fails :
    ∃ h, Machine.run (Handler.step (Sample.target 8) 1)
        { link := Sample.digestLogin, conn := Sample.conn 8 [] } [()] = .ok h ∧
      h.ok = true ∧ EmptyBlob (Sample.target 8) 1 h := by
  have h_eval : (Machine.run (Handler.step (Sample.target 8) 1)
      { link := Sample.digestLogin, conn := Sample.conn 8 [] } [()]).toOption.any
      (fun h => decide (h.ok = true ∧
        (receivePdu (Sample.target 8) 1 h.link h.conn.ses).toOption.any
          (fun res => decide (res.pdu = none ∧ res.failReason = .digest)) = true)) = true := by
    decide +kernel
  obtain ⟨h, h_run, h_ok, h_eval'⟩ := Machine.exists_ok_of_any h_eval
  obtain ⟨res, h_receive, h_pdu, h_reason⟩ := Machine.exists_ok_of_any h_eval'
  refine ⟨h, h_run, h_ok, (emptyBlob_iff 0 h).mpr ((wrongDigest_iff 0 _ _).mp ?_)⟩
  exact ⟨res, h_receive, h_pdu, by simp [h_reason], by simp [h_reason]⟩

end IscsiTarget
